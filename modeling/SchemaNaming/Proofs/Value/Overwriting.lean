import Mathlib.Data.List.Nodup
import SchemaNaming.Proofs.Mapping

/-!
# Mappings that texts are written to

Texts are written to a mapping under texts, many of them and some keys more than once. This module
says what the mapping is like after a list of such records, without going through them one by one:

* `Entries.find?_setTexts` — a key is read back as it was written last;
* `Entries.keys_setTexts_nil` — the keys stand in the order of their first records;
* `Entries.setTexts_self` — the same records a second time change nothing, although meanwhile a key
  may hold an earlier one of its values again;
* `Entries.setTexts_of_nodup` — records under distinct keys overwrite in place what was there, and
  add the others in their order; so their order does not matter to what is found
  (`Entries.find?_setTexts_perm`), nor to the places of the keys that were there
  (`Entries.reordered_setTexts`).

Setting a key splits into `Entries.overwrite`, which acts only where the key has an entry, and the
adding of an entry. Overwriting obeys the laws of a lens: under one key the second write wins, and
under two keys the writes commute. These two laws carry the last two results.
-/

namespace SchemaNaming

/-- Only a text equals a text, in this order too. -/
theorem Value.text_same_iff (s : String) (v : Value) :
    (Value.text s).same v = true ↔ v = .text s := by
  cases v with
  | text t =>
    simp only [same, beq_iff_eq, Value.text.injEq]
    exact eq_comm
  | floating x => cases hx : x.toInt? <;> simp [same, wholeNumber?, hx]
  | bool b => simp [same, wholeNumber?]
  | int n => simp [same, wholeNumber?]
  | _ => simp [same, wholeNumber?]

namespace Entries

def keys (es : Entries) : List Value := es.map Prod.fst

/-- `es` with `v` under `k` if there is an entry under `k`. -/
def overwrite (es : Entries) (k v : Value) : Entries :=
  match es with
  | [] => []
  | e :: es => if e.1.same k then (e.1, v) :: es else e :: overwrite es k v

/-! ### Overwriting -/

section Overwrite

variable {e : Value × Value} (es : Entries) {k l : String} (v w : Value)

theorem overwrite_cons_self (he : e.1 = .text k) :
    overwrite (e :: es) (.text k) v = (e.1, v) :: es := by
  rw [overwrite, if_pos ((Value.same_text_iff _ _).mpr he)]

theorem overwrite_cons_of_ne (he : e.1 ≠ .text k) :
    overwrite (e :: es) (.text k) v = e :: overwrite es (.text k) v := by
  rw [overwrite, if_neg fun h => he ((Value.same_text_iff _ _).mp h)]

@[simp] theorem keys_overwrite (k : Value) : (es.overwrite k v).keys = es.keys := by
  induction es with
  | nil => rfl
  | cons e es ih =>
    unfold overwrite
    split
    · rfl
    · exact congrArg (e.1 :: ·) ih

theorem overwrite_of_notMem (h : .text k ∉ es.keys) : es.overwrite (.text k) v = es := by
  induction es with
  | nil => rfl
  | cons e es ih =>
    obtain ⟨h_ne, h_rest⟩ := List.ne_and_not_mem_of_not_mem_cons h
    rw [overwrite_cons_of_ne es v (Ne.symm h_ne), ih h_rest]

/-- **The second write wins.** -/
theorem overwrite_self :
    (es.overwrite (.text k) v).overwrite (.text k) w = es.overwrite (.text k) w := by
  induction es with
  | nil => rfl
  | cons e es ih =>
    by_cases he : e.1 = .text k
    · rw [overwrite_cons_self es v he, overwrite_cons_self es w he,
        overwrite_cons_self (e := (e.1, v)) es w he]
    · rw [overwrite_cons_of_ne es v he, overwrite_cons_of_ne es w he, overwrite_cons_of_ne _ w he,
        ih]

/-- **Writes under two keys commute.** -/
theorem overwrite_comm (h : k ≠ l) :
    (es.overwrite (.text k) v).overwrite (.text l) w
      = (es.overwrite (.text l) w).overwrite (.text k) v := by
  induction es with
  | nil => rfl
  | cons e es ih =>
    by_cases hk : e.1 = .text k
    · have hl : e.1 ≠ .text l := fun hl => h (Value.text.inj (hk.symm.trans hl))
      rw [overwrite_cons_self es v hk, overwrite_cons_of_ne es w hl, overwrite_cons_self _ v hk,
        overwrite_cons_of_ne (e := (e.1, v)) es w hl]
    · rw [overwrite_cons_of_ne es v hk]
      by_cases hl : e.1 = .text l
      · rw [overwrite_cons_self _ w hl, overwrite_cons_self es w hl,
          overwrite_cons_of_ne (e := (e.1, w)) es v hk]
      · rw [overwrite_cons_of_ne _ w hl, overwrite_cons_of_ne es w hl,
          overwrite_cons_of_ne _ v hk, ih]

/-- Writing what is there changes nothing. -/
theorem overwrite_of_find? {es : Entries} {v : Value} (h : es.find? (.text k) = some v) :
    es.overwrite (.text k) v = es := by
  induction es with
  | nil => rfl
  | cons e es ih =>
    rw [find?_cons] at h
    by_cases he : e.1 = .text k
    · rw [if_pos ((Value.same_text_iff _ _).mpr he)] at h
      rw [overwrite_cons_self es v he, ← Option.some.inj h]
    · rw [if_neg fun hs => he ((Value.same_text_iff _ _).mp hs)] at h
      rw [overwrite_cons_of_ne es v he, ih h]

theorem overwrite_concat_of_ne (h : l ≠ k) :
    overwrite (es ++ [(.text l, w)]) (.text k) v = es.overwrite (.text k) v ++ [(.text l, w)] := by
  induction es with
  | nil => exact overwrite_cons_of_ne [] v fun h_eq => h (Value.text.inj h_eq)
  | cons e es ih =>
    rw [List.cons_append]
    by_cases he : e.1 = .text k
    · rw [overwrite_cons_self _ v he, overwrite_cons_self es v he, List.cons_append]
    · rw [overwrite_cons_of_ne _ v he, overwrite_cons_of_ne es v he, ih, List.cons_append]

theorem set_of_mem (h : .text k ∈ es.keys) : es.set (.text k) v = es.overwrite (.text k) v := by
  induction es with
  | nil => cases h
  | cons e es ih =>
    by_cases he : e.1.same (.text k)
    · rw [set, overwrite, if_pos he, if_pos he]
    · have h_ne : .text k ≠ e.1 := fun h_eq => he ((Value.same_text_iff _ _).mpr h_eq.symm)
      rw [set, overwrite, if_neg he, if_neg he, ih (List.mem_of_ne_of_mem h_ne h)]

theorem set_of_notMem (h : .text k ∉ es.keys) : es.set (.text k) v = es ++ [(.text k, v)] := by
  refine set_of_new (fun e he => Bool.eq_false_iff.mpr fun hs => h ?_) v
  rw [← (Value.same_text_iff _ _).mp hs]
  exact List.mem_map_of_mem he

end Overwrite

/-! ### Lists of records -/

/-- `es` with one text after another under a text. -/
def setTexts (es : Entries) (rs : List (String × String)) : Entries :=
  rs.foldl (fun es r => es.set (.text r.1) (.text r.2)) es

def overwriteTexts (es : Entries) (rs : List (String × String)) : Entries :=
  rs.foldl (fun es r => es.overwrite (.text r.1) (.text r.2)) es

section Texts

variable (es : Entries) (rs : List (String × String))

theorem setTexts_concat (r : String × String) :
    es.setTexts (rs ++ [r]) = (es.setTexts rs).set (.text r.1) (.text r.2) :=
  List.foldl_append

/-- **Read back.** The last record under a name is what is found there; without one it is what was
there before. -/
theorem find?_setTexts (k : String) :
    (es.setTexts rs).find? (.text k)
      = ((rs.reverse.lookup k).map .text).or (es.find? (.text k)) := by
  induction rs using List.reverseRecOn with
  | nil => rfl
  | append_singleton rs r ih =>
    rw [setTexts_concat, List.reverse_concat, List.lookup_cons]
    by_cases h_eq : k = r.1
    · rw [h_eq, find?_set_self, beq_self_eq_true]
      rfl
    · rw [find?_set_of_ne _ h_eq, ih, beq_eq_false_iff_ne.mpr h_eq]

theorem keys_set_of_mem {k : String} (v : Value) (h : .text k ∈ es.keys) :
    (es.set (.text k) v).keys = es.keys := by
  rw [set_of_mem es v h, keys_overwrite]

theorem keys_set_of_notMem {k : String} (v : Value) (h : .text k ∉ es.keys) :
    (es.set (.text k) v).keys = es.keys ++ [.text k] := by
  rw [set_of_notMem es v h]
  exact List.map_append

/-- No key is lost, and none changes its place. -/
theorem keys_prefix_setTexts : es.keys <+: (es.setTexts rs).keys := by
  induction rs using List.reverseRecOn with
  | nil => exact List.prefix_refl _
  | append_singleton rs r ih =>
    rw [setTexts_concat]
    refine ih.trans ?_
    by_cases h : .text r.1 ∈ (es.setTexts rs).keys
    · exact ⟨[], by rw [keys_set_of_mem _ _ h, List.append_nil]⟩
    · rw [keys_set_of_notMem _ _ h]
      exact List.prefix_append _ _

/-- **The keys** of a map that starts out empty, in the order of their first records. -/
theorem keys_setTexts_nil :
    (setTexts [] rs).keys = (rs.map Prod.fst).eraseDups.map .text := by
  induction rs using List.reverseRecOn with
  | nil => rfl
  | append_singleton rs r ih =>
    rw [setTexts_concat, List.map_append, List.eraseDups_append, List.map_append, ← ih]
    have h_keys : .text r.1 ∈ (setTexts [] rs).keys ↔ r.1 ∈ rs.map Prod.fst := by
      rw [ih, List.mem_map_of_injective fun _ _ h => Value.text.inj h, List.mem_eraseDups]
    by_cases h : r.1 ∈ rs.map Prod.fst
    · rw [keys_set_of_mem _ _ (h_keys.mpr h)]
      simp [List.removeAll, h]
    · rw [keys_set_of_notMem _ _ (mt h_keys.mp h)]
      simp [List.removeAll, h, List.eraseDups_cons]

theorem mem_keys_setTexts {r : String × String} (h : r ∈ rs) :
    .text r.1 ∈ (es.setTexts rs).keys := by
  induction rs using List.reverseRecOn with
  | nil => cases h
  | append_singleton rs q ih =>
    rw [setTexts_concat]
    by_cases h_key : .text q.1 ∈ (es.setTexts rs).keys
    · rw [keys_set_of_mem _ _ h_key]
      rcases List.mem_append.mp h with h | h
      · exact ih h
      · rwa [List.mem_singleton.mp h]
    · rw [keys_set_of_notMem _ _ h_key]
      rcases List.mem_append.mp h with h | h
      · exact List.mem_append_left _ (ih h)
      · rw [List.mem_singleton.mp h]
        exact List.mem_append_right _ List.mem_cons_self

end Texts

/-! ### The same records again -/

/-- Where every key has an entry, setting is overwriting. -/
theorem setTexts_of_keys {es : Entries} {rs : List (String × String)}
    (h : ∀ r ∈ rs, .text r.1 ∈ es.keys) : es.setTexts rs = es.overwriteTexts rs := by
  unfold setTexts overwriteTexts
  induction rs generalizing es with
  | nil => rfl
  | cons r rs ih =>
    rw [List.foldl_cons, List.foldl_cons, set_of_mem es _ (h r List.mem_cons_self)]
    refine ih fun q hq => ?_
    rw [keys_overwrite]
    exact h q (List.mem_cons_of_mem _ hq)

/-- What is overwritten later need not be written. -/
theorem overwriteTexts_overwrite (es : Entries) {rs : List (String × String)} {k : String}
    (v : Value) (h : k ∈ rs.map Prod.fst) :
    (es.overwrite (.text k) v).overwriteTexts rs = es.overwriteTexts rs := by
  unfold overwriteTexts
  induction rs generalizing es with
  | nil => cases h
  | cons r rs ih =>
    rw [List.foldl_cons, List.foldl_cons]
    by_cases h_eq : k = r.1
    · rw [h_eq, overwrite_self]
    · rw [overwrite_comm es _ _ h_eq]
      exact ih _ (List.mem_of_ne_of_mem h_eq h)

/-- What is not recorded is read back as before. -/
theorem find?_setTexts_of_notMem (es : Entries) {rs : List (String × String)} {k : String}
    (h : k ∉ rs.map Prod.fst) : (es.setTexts rs).find? (.text k) = es.find? (.text k) := by
  have h_lookup : rs.reverse.lookup k = none := by
    refine List.lookup_eq_none_iff.mpr fun r hr => bne_iff_ne.mpr ?_
    rintro rfl
    exact h (List.mem_map_of_mem (List.mem_reverse.mp hr))
  rw [find?_setTexts, h_lookup]
  rfl

/-- **The same records again** change nothing. An earlier value of a key that is written again is
overwritten again; a last one is there already. -/
theorem setTexts_self (es : Entries) (rs : List (String × String)) :
    (es.setTexts rs).setTexts rs = es.setTexts rs := by
  rw [setTexts_of_keys fun r hr => mem_keys_setTexts es rs hr]
  induction rs generalizing es with
  | nil => rfl
  | cons r rs ih =>
    change (((es.set (.text r.1) (.text r.2)).setTexts rs).overwrite (.text r.1)
      (.text r.2)).overwriteTexts rs = (es.set (.text r.1) (.text r.2)).setTexts rs
    by_cases h : r.1 ∈ rs.map Prod.fst
    · rw [overwriteTexts_overwrite _ _ h, ih]
    · have h_last : ((es.set (.text r.1) (.text r.2)).setTexts rs).find? (.text r.1)
          = some (.text r.2) := by
        rw [find?_setTexts_of_notMem _ h, find?_set_self]
      rw [overwrite_of_find? h_last, ih]

/-! ### Records under distinct keys -/

theorem find?_eq_none_iff {es : Entries} {k : String} :
    es.find? (.text k) = none ↔ .text k ∉ es.keys := by
  induction es with
  | nil => exact iff_of_true rfl List.not_mem_nil
  | cons e es ih =>
    have h_keys : keys (e :: es) = e.1 :: keys es := rfl
    rw [find?_cons, h_keys, List.mem_cons, not_or]
    by_cases he : e.1 = .text k
    · rw [if_pos ((Value.same_text_iff _ _).mpr he)]
      exact iff_of_false nofun fun h => h.1 he.symm
    · rw [if_neg fun hs => he ((Value.same_text_iff _ _).mp hs), ih]
      exact (and_iff_right (Ne.symm he)).symm

/-- A record as an entry. -/
def ofText (r : String × String) : Value × Value := (.text r.1, .text r.2)

/-- The records under keys that have no entry. -/
def newTexts (es : Entries) (rs : List (String × String)) : List (String × String) :=
  rs.filter fun r => (es.find? (.text r.1)).isNone

section New

variable {es fs : Entries} {r : String × String} {rs : List (String × String)}

theorem newTexts_cons_of_mem (h : .text r.1 ∈ es.keys) :
    es.newTexts (r :: rs) = es.newTexts rs := by
  refine List.filter_cons_of_neg (p := fun r : String × String => (es.find? (.text r.1)).isNone) ?_
  rw [Option.isNone_iff_eq_none, find?_eq_none_iff]
  exact not_not_intro h

theorem newTexts_cons_of_notMem (h : .text r.1 ∉ es.keys) :
    es.newTexts (r :: rs) = r :: es.newTexts rs := by
  refine List.filter_cons_of_pos (p := fun r : String × String => (es.find? (.text r.1)).isNone) ?_
  rw [Option.isNone_iff_eq_none, find?_eq_none_iff]
  exact h

theorem newTexts_congr (h : ∀ r ∈ rs, .text r.1 ∈ es.keys ↔ .text r.1 ∈ fs.keys) :
    es.newTexts rs = fs.newTexts rs := by
  refine List.filter_congr fun r hr => Bool.eq_iff_iff.mpr ?_
  rw [Option.isNone_iff_eq_none, Option.isNone_iff_eq_none, find?_eq_none_iff, find?_eq_none_iff,
    h r hr]

end New

theorem overwriteTexts_concat_of_ne (es : Entries) {rs : List (String × String)} {k : String}
    (w : Value) (h : k ∉ rs.map Prod.fst) :
    overwriteTexts (es ++ [(.text k, w)]) rs = es.overwriteTexts rs ++ [(.text k, w)] := by
  unfold overwriteTexts
  induction rs generalizing es with
  | nil => rfl
  | cons r rs ih =>
    obtain ⟨h_ne, h_rest⟩ := List.ne_and_not_mem_of_not_mem_cons h
    rw [List.foldl_cons, List.foldl_cons, overwrite_concat_of_ne es _ w h_ne]
    exact ih _ h_rest

/-- **Records under distinct keys** overwrite what was there, and add the others behind. -/
theorem setTexts_of_nodup (es : Entries) {rs : List (String × String)}
    (hk : (rs.map Prod.fst).Nodup) :
    es.setTexts rs = es.overwriteTexts rs ++ (es.newTexts rs).map ofText := by
  induction rs generalizing es with
  | nil => exact (List.append_nil es).symm
  | cons r rs ih =>
    obtain ⟨h_new, hk⟩ := List.nodup_cons.mp hk
    change (es.set (.text r.1) (.text r.2)).setTexts rs
      = (es.overwrite (.text r.1) (.text r.2)).overwriteTexts rs ++ _
    by_cases h : .text r.1 ∈ es.keys
    · have h_same : newTexts (es.overwrite (.text r.1) (.text r.2)) rs = es.newTexts rs :=
        newTexts_congr fun q _ => by rw [keys_overwrite]
      rw [set_of_mem es _ h, ih _ hk, newTexts_cons_of_mem h, h_same]
    · -- the entry that is added does not count as one that was there, but no other record meets it
      have h_same : newTexts (es ++ [(.text r.1, .text r.2)]) rs = es.newTexts rs := by
        refine newTexts_congr fun q hq => ?_
        have h_ne : Value.text q.1 ≠ .text r.1 := fun h_eq =>
          h_new (Value.text.inj h_eq ▸ List.mem_map_of_mem hq)
        simp [keys, h_ne]
      rw [set_of_notMem es _ h, ih _ hk, overwriteTexts_concat_of_ne es _ h_new, h_same,
        overwrite_of_notMem es _ h, newTexts_cons_of_notMem h, List.append_assoc]
      rfl

/-- The order of such records does not matter to what they overwrite. -/
theorem overwriteTexts_perm (es : Entries) {rs rs' : List (String × String)}
    (hk : (rs.map Prod.fst).Nodup) (h : rs.Perm rs') :
    es.overwriteTexts rs = es.overwriteTexts rs' := by
  unfold overwriteTexts
  refine h.foldl_eq' (fun r hr q hq fs => ?_) es
  by_cases h_eq : r.1 = q.1
  · rw [List.inj_on_of_nodup_map hk hr hq h_eq]
  · exact overwrite_comm fs _ _ h_eq

@[simp] theorem keys_overwriteTexts (es : Entries) (rs : List (String × String)) :
    (es.overwriteTexts rs).keys = es.keys := by
  unfold overwriteTexts
  induction rs generalizing es with
  | nil => rfl
  | cons r rs ih => rw [List.foldl_cons, ih, keys_overwrite]

/-! ### Up to the order of what is added -/

/-- Two maps that come of `es`. The keys of `es` stand in their places, with the same values in
both, and the same entries are added, perhaps in another order. -/
def Reordered (es fs fs' : Entries) : Prop :=
  ∃ kept added added', kept.keys = es.keys ∧ fs = kept ++ added ∧ fs' = kept ++ added'
    ∧ added.Perm added'

theorem reordered_setTexts (es : Entries) {rs rs' : List (String × String)}
    (hk : (rs.map Prod.fst).Nodup) (h : rs.Perm rs') :
    es.Reordered (es.setTexts rs) (es.setTexts rs') := by
  refine ⟨es.overwriteTexts rs, (es.newTexts rs).map ofText, (es.newTexts rs').map ofText,
    keys_overwriteTexts es rs, setTexts_of_nodup es hk, ?_, (h.filter _).map ofText⟩
  rw [overwriteTexts_perm es hk h]
  exact setTexts_of_nodup es (((h.map Prod.fst).nodup_iff).mp hk)

theorem find?_append (es fs : Entries) (k : Value) :
    find? (es ++ fs) k = (es.find? k).or (fs.find? k) := by
  unfold find?
  rw [List.find?_append, Option.map_or]

theorem distinct_ofText {rs : List (String × String)} (hk : (rs.map Prod.fst).Nodup) :
    Distinct (rs.map ofText) := by
  unfold Distinct
  rw [List.pairwise_map]
  exact (List.pairwise_map.mp hk).imp fun h_ne => Value.same_text_of_ne h_ne

/-- What is found under a key of whatever kind does not depend on the order of such records. -/
theorem find?_ofText_perm {rs rs' : List (String × String)} (hk : (rs.map Prod.fst).Nodup)
    (h : rs.Perm rs') (k : Value) : find? (rs.map ofText) k = find? (rs'.map ofText) k := by
  by_cases h_text : ∃ t, k = .text t
  · obtain ⟨t, rfl⟩ := h_text
    exact find?_perm (distinct_ofText hk) (distinct_ofText ((h.map Prod.fst).nodup_iff.mp hk))
      (h.map ofText) t
  · -- a key that is no text has no record
    have h_none : ∀ qs : List (String × String), find? (qs.map ofText) k = none := by
      intro qs
      rw [find?, Option.map_eq_none_iff, List.find?_eq_none]
      intro e he h_same
      obtain ⟨q, -, rfl⟩ := List.mem_map.mp he
      exact h_text ⟨q.1, (Value.text_same_iff _ _).mp h_same⟩
    rw [h_none, h_none]

/-- **The order of records under distinct keys** does not matter to what is found. -/
theorem find?_setTexts_perm (es : Entries) {rs rs' : List (String × String)}
    (hk : (rs.map Prod.fst).Nodup) (h : rs.Perm rs') (k : Value) :
    (es.setTexts rs).find? k = (es.setTexts rs').find? k := by
  have hk' : (rs'.map Prod.fst).Nodup := (h.map Prod.fst).nodup_iff.mp hk
  have hk_new : ((es.newTexts rs).map Prod.fst).Nodup :=
    hk.sublist (List.filter_sublist.map Prod.fst)
  rw [setTexts_of_nodup es hk, setTexts_of_nodup es hk', find?_append, find?_append,
    overwriteTexts_perm es hk h, find?_ofText_perm hk_new (h.filter _)]
  rfl

end Entries

end SchemaNaming
