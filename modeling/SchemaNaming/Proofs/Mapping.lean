import Mathlib.Data.List.Induction
import Mathlib.Data.List.ReduceOption
import SchemaNaming.SchemaTable

/-!
# Mappings in insertion order

Names and schemas are kept in mappings whose order shows. Every mapping that the library meets was
built by setting one key after another, so no two keys are equal (`Entries.distinct_ofPairs`);
`Entries.Distinct` says so of a list of entries.

Setting a text key acts on exactly one entry: `Value.same_text_iff` says that only the text itself
is equal to it. Reading back under the key gives the value (`Entries.find?_set_self`), other texts
are not affected (`Entries.find?_set_of_ne`), and setting the same value twice is setting it once
(`Entries.set_set_self`). What is found does not depend on the order of the entries, nor on entries
with other keys (`Entries.find?_perm`, `Entries.find?_filter`).

The second half is about the table that a walk over a document's schemas reads. If no two keys are
equal the table holds the entries one after another without gaps (`SchemaTable.ofEntries_slots`).
`SchemaTable.entriesFrom` is what a walk has before it at a slot; each step of the walk takes its
first entry (`SchemaTable.entriesFrom_of_next?`).
-/

namespace SchemaNaming

namespace Value

/-- Only a text equals a text, and only itself. -/
theorem same_text_iff (v : Value) (s : String) : v.same (.text s) = true ↔ v = .text s := by
  cases v with
  | floating x => cases hx : x.toInt? <;> simp [same, wholeNumber?, hx]
  | bool b => simp [same, wholeNumber?]
  | int n => simp [same, wholeNumber?]
  | _ => simp [same, wholeNumber?]

@[simp] theorem same_text_self (s : String) : (Value.text s).same (.text s) = true :=
  (same_text_iff _ _).mpr rfl

theorem entries?_eq_some_iff {v : Value} {es : Entries} : v.entries? = some es ↔ v = .map es := by
  cases v with
  | map fs => rw [entries?, Option.some.injEq, map.injEq]
  | _ => exact iff_of_false nofun nofun

theorem same_text_of_ne {s t : String} (h : s ≠ t) : (Value.text s).same (.text t) = false := by
  rw [← Bool.not_eq_true, same_text_iff, Value.text.injEq]
  exact h

end Value

namespace Entries

/-! ### Keys -/

/-- No two keys are equal. -/
def Distinct (es : Entries) : Prop := es.Pairwise fun a b => a.1.same b.1 = false

/-- The entries after setting a key have the old keys, and that one. -/
theorem mem_set {es : Entries} {k v : Value} {x : Value × Value} (hx : x ∈ es.set k v) :
    (∃ y ∈ es, x.1 = y.1) ∨ x = (k, v) := by
  induction es with
  | nil => exact .inr (List.mem_singleton.mp hx)
  | cons e es ih =>
    by_cases he : e.1.same k
    · rw [set, if_pos he] at hx
      rcases List.mem_cons.mp hx with rfl | hx
      · exact .inl ⟨e, List.mem_cons_self, rfl⟩
      · exact .inl ⟨x, List.mem_cons_of_mem _ hx, rfl⟩
    · rw [set, if_neg he] at hx
      rcases List.mem_cons.mp hx with rfl | hx
      · exact .inl ⟨x, List.mem_cons_self, rfl⟩
      · refine (ih hx).imp ?_ id
        rintro ⟨y, hy, h_key⟩
        exact ⟨y, List.mem_cons_of_mem _ hy, h_key⟩

theorem Distinct.set {es : Entries} (h : es.Distinct) (k v : Value) : (es.set k v).Distinct := by
  induction es with
  | nil => exact List.pairwise_singleton _ _
  | cons e es ih =>
    obtain ⟨h_head, h_tail⟩ := List.pairwise_cons.mp h
    by_cases he : e.1.same k
    · -- the entry keeps its key
      rw [Entries.set, if_pos he]
      exact List.pairwise_cons.mpr ⟨h_head, h_tail⟩
    · rw [Entries.set, if_neg he]
      refine List.pairwise_cons.mpr ⟨fun x hx => ?_, ih h_tail⟩
      rcases mem_set hx with ⟨y, hy, h_key⟩ | rfl
      · rw [h_key]
        exact h_head y hy
      · exact Bool.eq_false_iff.mpr he

/-- **Every mapping has distinct keys**, however often a key was set while it was built. -/
theorem distinct_ofPairs (pairs : List (Value × Value)) : (ofPairs pairs).Distinct := by
  unfold ofPairs
  induction pairs using List.reverseRecOn with
  | nil => exact List.Pairwise.nil
  | append_singleton pairs p ih =>
    rw [List.foldl_append]
    exact ih.set p.1 p.2

theorem set_of_new {es : Entries} {k : Value} (h : ∀ e ∈ es, e.1.same k = false) (v : Value) :
    es.set k v = es ++ [(k, v)] := by
  induction es with
  | nil => rfl
  | cons e es ih =>
    rw [set, if_neg (by rw [h e List.mem_cons_self]; exact Bool.false_ne_true),
      ih fun e he => h e (List.mem_cons_of_mem _ he)]
    rfl

/-- The second mapping is the first with `v` set under `k`: where the key stood, or at the end if it
is a new one. -/
inductive SetAt (k v : Value) : Entries → Entries → Prop where
  | replaced {before after : Entries} {old : Value} (h_first : ∀ e ∈ before, e.1 ≠ k) :
      SetAt k v (before ++ (k, old) :: after) (before ++ (k, v) :: after)
  | added {es : Entries} (h_new : ∀ e ∈ es, e.1 ≠ k) : SetAt k v es (es ++ [(k, v)])

/-- **Setting a text key** keeps every other entry in its place. -/
theorem setAt_set (es : Entries) (k : String) (v : Value) :
    SetAt (.text k) v es (es.set (.text k) v) := by
  induction es with
  | nil => exact .added (List.forall_mem_nil _)
  | cons e es ih =>
    by_cases he : e.1.same (.text k)
    · have h_key : e = (.text k, e.2) := Prod.ext ((Value.same_text_iff _ _).mp he) rfl
      rw [set, if_pos he, h_key]
      change SetAt (.text k) v ([] ++ (.text k, e.2) :: es) ([] ++ (.text k, v) :: es)
      exact .replaced (List.forall_mem_nil _)
    · have h_ne : e.1 ≠ .text k := fun h_eq => he ((Value.same_text_iff _ _).mpr h_eq)
      rw [set, if_neg he]
      -- the key is set among the entries behind
      generalize Entries.set es (.text k) v = es' at ih ⊢
      cases ih with
      | replaced h_first => exact .replaced (List.forall_mem_cons.mpr ⟨h_ne, h_first⟩)
      | added h_new => exact .added (List.forall_mem_cons.mpr ⟨h_ne, h_new⟩)

/-! ### Reading back -/

theorem find?_cons (e : Value × Value) (es : Entries) (k : Value) :
    Entries.find? (e :: es) k = if e.1.same k then some e.2 else Entries.find? es k := by
  unfold Entries.find?
  rw [List.find?_cons]
  by_cases h : e.1.same k <;> simp [h]

theorem find?_set_self (es : Entries) (k : String) (v : Value) :
    (es.set (.text k) v).find? (.text k) = some v := by
  induction es with
  | nil => rw [set, find?_cons, if_pos (Value.same_text_self k)]
  | cons e es ih =>
    by_cases he : e.1.same (.text k)
    · rw [set, if_pos he, find?_cons, if_pos he]
    · rw [set, if_neg he, find?_cons, if_neg he, ih]

theorem find?_set_of_ne (es : Entries) {k l : String} (h : l ≠ k) (v : Value) :
    (es.set (.text k) v).find? (.text l) = es.find? (.text l) := by
  have hkl : (Value.text k).same (.text l) ≠ true := by
    rw [Value.same_text_of_ne h.symm]
    exact Bool.false_ne_true
  induction es with
  | nil => rw [set, find?_cons, if_neg hkl]
  | cons e es ih =>
    by_cases he : e.1.same (.text k)
    · -- the entry that is replaced was not found before either
      have hel : e.1.same (.text l) ≠ true := by rwa [(Value.same_text_iff _ _).mp he]
      rw [set, if_pos he, find?_cons, find?_cons, if_neg hel, if_neg hel]
    · rw [set, if_neg he, find?_cons, find?_cons, ih]

/-- Setting a value twice is setting it once. -/
theorem set_set_self (es : Entries) (k : String) (v : Value) :
    (es.set (.text k) v).set (.text k) v = es.set (.text k) v := by
  induction es with
  | nil => rw [set, set, if_pos (Value.same_text_self k)]
  | cons e es ih =>
    by_cases he : e.1.same (.text k)
    · rw [set, if_pos he, set, if_pos he]
    · rw [set, if_neg he, set, if_neg he, ih]

/-- If no two keys are equal, what is found under a text is the value of the entry with that key. -/
theorem find?_text_iff {es : Entries} (hd : es.Distinct) {k : String} {v : Value} :
    es.find? (.text k) = some v ↔ (.text k, v) ∈ es := by
  induction es with
  | nil => exact iff_of_false nofun nofun
  | cons e es ih =>
    obtain ⟨h_head, h_tail⟩ := List.pairwise_cons.mp hd
    rw [find?_cons, List.mem_cons]
    by_cases he : e.1.same (.text k)
    · have h_key : e.1 = .text k := (Value.same_text_iff _ _).mp he
      rw [if_pos he, Option.some.injEq]
      constructor
      · rintro rfl
        exact .inl (Prod.ext h_key.symm rfl)
      · rintro (h_eq | h_mem)
        · exact (congrArg Prod.snd h_eq).symm
        · -- a second entry with the key would have an equal one
          have h_two : e.1.same (.text k) = false := h_head _ h_mem
          rw [he] at h_two
          cases h_two
    · have h_ne : (Value.text k, v) ≠ e := by
        rintro rfl
        exact he (Value.same_text_self k)
      rw [if_neg he, ih h_tail, or_iff_right h_ne]

/-- The order of the entries does not matter for what is found. -/
theorem find?_perm {es fs : Entries} (hd : es.Distinct) (hd' : fs.Distinct) (h : es.Perm fs)
    (k : String) : es.find? (.text k) = fs.find? (.text k) := by
  refine Option.ext fun v => ?_
  rw [find?_text_iff hd, find?_text_iff hd', h.mem_iff]

/-- Nor do entries with other keys. -/
theorem find?_filter (es : Entries) {p : Value × Value → Bool} {k : String}
    (h : ∀ v, p (.text k, v) = true) :
    Entries.find? (es.filter p) (.text k) = es.find? (.text k) := by
  induction es with
  | nil => rfl
  | cons e es ih =>
    rw [find?_cons, List.filter_cons]
    by_cases he : e.1.same (.text k)
    · have h_key : e = (.text k, e.2) := Prod.ext ((Value.same_text_iff _ _).mp he) rfl
      have hp : p e = true := by
        rw [h_key]
        exact h e.2
      rw [if_pos hp, find?_cons, if_pos he, if_pos he]
    · rw [if_neg he, ← ih]
      split
      · rw [find?_cons, if_neg he]
      · rfl

/-! ### Entries that are mappings themselves -/

/-- The entries whose values are mappings. -/
def mappings (es : Entries) : Entries := es.filter fun e => e.2.isMap

section Mappings

variable {e : Value × Value} (es : Entries)

theorem mappings_cons_of_map (h_map : e.2.isMap = true) :
    mappings (e :: es) = e :: mappings es :=
  List.filter_cons_of_pos (p := fun e : Value × Value => e.2.isMap) h_map

theorem mappings_cons_of_not_map (h_map : e.2.isMap = false) :
    mappings (e :: es) = mappings es :=
  List.filter_cons_of_neg (p := fun e : Value × Value => e.2.isMap)
    (by rw [h_map]; exact Bool.false_ne_true)

end Mappings

end Entries

namespace SchemaTable

/-! ### Tables without gaps -/

theorem entries_of_slots {t : SchemaTable} {es : Entries} (h : t.slots = es.map some) :
    t.entries = es := by
  unfold entries
  rw [h, List.reduceOption, List.filterMap_map]
  exact List.filterMap_some

theorem moved_slots {t : SchemaTable} {es : Entries} (h : t.slots = es.map some) :
    t.moved.slots = es.map some := by
  unfold moved
  dsimp only
  rw [entries_of_slots h]

theorem set_slots {t : SchemaTable} {es : Entries} (h : t.slots = es.map some) {k : Value}
    (h_new : ∀ e ∈ es, e.1.same k = false) (v : Value) :
    (t.set k v).slots = (es ++ [(k, v)]).map some := by
  -- the key finds no entry, in whichever table the entries stand by then
  have h_has : ∀ u : SchemaTable, u.slots = es.map some → u.has k = false := by
    intro u hu
    unfold has
    rw [entries_of_slots hu, List.any_eq_false]
    intro e he
    rw [h_new e he]
    exact Bool.false_ne_true
  have h_append : ∀ u : SchemaTable, u.slots = es.map some →
      (if u.has k then u.replace k v else u.append k v).slots = (es ++ [(k, v)]).map some := by
    intro u hu
    rw [h_has u hu, if_neg Bool.false_ne_true, append, List.map_append]
    by_cases hf : u.fresh = 0
    · rw [if_pos hf, moved_slots hu]
      rfl
    · rw [if_neg hf, hu]
      rfl
  unfold set
  cases k with
  | text s => exact h_append t h
  | _ =>
    dsimp only
    split
    · exact h_append _ h
    · exact h_append _ (moved_slots h)

/-- **The table of a mapping** holds its entries in their order, without gaps. -/
theorem ofEntries_slots {es : Entries} (hd : es.Distinct) : (ofEntries es).slots = es.map some := by
  unfold ofEntries
  induction es using List.reverseRecOn with
  | nil => rfl
  | append_singleton es e ih =>
    -- the last entry has a key of its own, so setting it appends
    obtain ⟨hd', -, h_last⟩ := List.pairwise_append.mp hd
    rw [List.foldl_append]
    exact set_slots (ih hd') (fun x hx => h_last x hx e (List.mem_singleton.mpr rfl)) e.2

/-! ### What is still to come -/

/-- The entries from a slot on. -/
def entriesFrom (t : SchemaTable) (i : Nat) : Entries := (t.slots.drop i).reduceOption

/-- The search for the next entry, said of the slots that it goes through. -/
private theorem go_eq (i : Nat) (l : List (Option (Value × Value))) :
    (next?.go i l = none ∧ l.reduceOption = [])
      ∨ ∃ k e, next?.go i l = some (i + k + 1, e)
          ∧ l.reduceOption = e :: (l.drop (k + 1)).reduceOption := by
  induction l generalizing i with
  | nil => exact .inl ⟨rfl, rfl⟩
  | cons x l ih =>
    cases x with
    | some e => exact .inr ⟨0, e, rfl, List.reduceOption_cons_of_some e l⟩
    | none =>
      rw [List.reduceOption_cons_of_none, next?.go]
      refine (ih (i + 1)).imp id ?_
      rintro ⟨k, e, h_go, h_rest⟩
      refine ⟨k + 1, e, ?_, h_rest⟩
      rw [h_go, Nat.add_right_comm i 1 k, Nat.add_assoc i k 1]

/-- There is no next entry exactly when none is to come. -/
theorem next?_eq_none_iff {t : SchemaTable} {i : Nat} :
    t.next? i = none ↔ t.entriesFrom i = [] := by
  unfold next? entriesFrom
  rcases go_eq i (t.slots.drop i) with ⟨h_go, h_rest⟩ | ⟨k, e, h_go, h_rest⟩
  · rw [h_go, h_rest]
    exact iff_of_true rfl rfl
  · rw [h_go, h_rest]
    exact iff_of_false nofun nofun

/-- The next entry is the first of those to come, and the others come after it. -/
theorem entriesFrom_of_next? {t : SchemaTable} {i j : Nat} {e : Value × Value}
    (h : t.next? i = some (j, e)) : t.entriesFrom i = e :: t.entriesFrom j := by
  unfold next? at h
  unfold entriesFrom
  rcases go_eq i (t.slots.drop i) with ⟨h_go, -⟩ | ⟨k, e', h_go, h_rest⟩
  · rw [h_go] at h
    cases h
  · rw [h_go] at h
    obtain ⟨rfl, rfl⟩ := Prod.mk.inj (Option.some.inj h)
    rw [h_rest, List.drop_drop, Nat.add_assoc]

/-- While entries are to come there is a next one. -/
theorem next?_of_entriesFrom {t : SchemaTable} {i : Nat} {e : Value × Value} {rest : Entries}
    (h : t.entriesFrom i = e :: rest) : ∃ j, t.next? i = some (j, e) ∧ t.entriesFrom j = rest := by
  cases hn : t.next? i with
  | none =>
    rw [next?_eq_none_iff.mp hn] at h
    cases h
  | some x =>
    obtain ⟨j, e'⟩ := x
    rw [entriesFrom_of_next? hn] at h
    obtain ⟨rfl, h_rest⟩ := List.cons.inj h
    exact ⟨j, rfl, h_rest⟩

/-! ### Keys in their places -/

/-- Which key stands in which slot, and whether its value is a mapping. -/
def outline (t : SchemaTable) : List (Option (Value × Bool)) :=
  t.slots.map (Option.map fun e => (e.1, e.2.isMap))

theorem entriesFrom_of_outline {t u : SchemaTable} (h : t.outline = u.outline) (i : Nat) :
    (t.entriesFrom i).map (fun e => (e.1, e.2.isMap))
      = (u.entriesFrom i).map fun e => (e.1, e.2.isMap) := by
  have h_drop : ∀ v : SchemaTable, (v.entriesFrom i).map (fun e => (e.1, e.2.isMap))
      = (v.outline.drop i).reduceOption := fun v => by
    unfold entriesFrom outline
    rw [← List.map_drop, List.reduceOption_map]
  rw [h_drop, h_drop, h]

theorem length_entriesFrom_of_outline {t u : SchemaTable} (h : t.outline = u.outline) (i : Nat) :
    (t.entriesFrom i).length = (u.entriesFrom i).length := by
  have h_len := congrArg List.length (entriesFrom_of_outline h i)
  rwa [List.length_map, List.length_map] at h_len

theorem size_of_outline {t u : SchemaTable} (h : t.outline = u.outline) : t.size = u.size :=
  length_entriesFrom_of_outline h 0

end SchemaTable

end SchemaNaming
