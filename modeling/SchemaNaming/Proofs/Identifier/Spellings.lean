import SchemaNaming.Proofs.Cms.Scan
import SchemaNaming.Proofs.Mapping
import SchemaNaming.Proofs.Value.Leaves

/-!
# What decides a field

The spellings of a field are scanned in their order. The scan passes over a spelling under which
nothing stands, or a value whose text is blank; the first other spelling decides, be it by a text or
by the fault of a text (`Metadata.Decides`). No later value is asked for its text, so it does not
matter whether it has one.

`Metadata.firstText_decided` says this for any list of spellings, and beside it that the outcome
depends on nothing but what stands under them, and which field the fault of a block is that of.
-/

namespace SchemaNaming

namespace Metadata

/-- The scan passes over the key: nothing stands under it, or a value whose text is blank. -/
def Passes (block : Entries) (k : String) : Prop :=
  ∀ v, block.get? k = some v → ∃ t, v.fieldText = .ok t ∧ trimBlank t = ""

/-- Of the keys from the `earlier` ones to `k` the scan passes over all but the last, where it finds
a value whose text fails or is not blank. -/
structure Decides (block : Entries) (earlier : List String) (k : String) (v : Value) : Prop where
  passed : ∀ j ∈ earlier, Passes block j
  found : block.get? k = some v
  stops : ∀ t, v.fieldText = .ok t → trimBlank t ≠ ""

section Passes

variable {block : Entries} {k : String}

theorem readsBlank_iff {v : Value} :
    v.readsBlank = true ↔ ∃ t, v.fieldText = .ok t ∧ trimBlank t = "" := by
  rw [Value.readsBlank_iff]
  cases v.fieldText with
  | error f => exact iff_of_false nofun fun ⟨_, h_text, _⟩ => nomatch h_text
  | ok t =>
    constructor
    · intro h_blank
      exact ⟨t, rfl, Except.ok.inj h_blank⟩
    · rintro ⟨s, h_text, h_blank⟩
      obtain rfl := Except.ok.inj h_text
      exact congrArg Except.ok h_blank

theorem Passes.firstText_cons (h : Passes block k) (ks : List String) :
    firstText block (k :: ks) = firstText block ks := by
  cases h_get : block.get? k with
  | none => exact firstText_of_absent ks h_get
  | some v => exact firstText_of_blank ks h_get (readsBlank_iff.mpr (h v h_get))

/-- Keys that are passed over do not matter. -/
theorem firstText_append_of_passes {earlier : List String} (h : ∀ j ∈ earlier, Passes block j)
    (ks : List String) : firstText block (earlier ++ ks) = firstText block ks := by
  induction earlier with
  | nil => rfl
  | cons j earlier ih =>
    rw [List.forall_mem_cons] at h
    obtain ⟨h_first, h_rest⟩ := h
    rw [List.cons_append, h_first.firstText_cons, ih h_rest]

/-- Whether a key is passed over depends on what stands under it. -/
theorem Passes.congr {block' : Entries} (h : Passes block k)
    (h_get : block'.get? k = block.get? k) : Passes block' k := by
  intro v hv
  exact h v (h_get ▸ hv)

end Passes

section Decides

variable {block : Entries} {earlier : List String} {k : String} {v : Value}

theorem Decides.readsBlank (h : Decides block earlier k v) : v.readsBlank = false := by
  rw [Bool.eq_false_iff]
  intro h_blank
  obtain ⟨t, h_text, h_empty⟩ := readsBlank_iff.mp h_blank
  exact h.stops t h_text h_empty

/-- **The deciding value** gives the outcome, its text or its fault. -/
theorem Decides.firstText_eq (h : Decides block earlier k v) (later : List String) :
    firstText block (earlier ++ k :: later) = v.fieldText.map trimBlank := by
  rw [firstText_append_of_passes h.passed]
  exact firstText_of_not_blank later h.found h.readsBlank

theorem Decides.congr {block' : Entries} (h : Decides block earlier k v)
    (h_agree : ∀ j ∈ earlier ++ [k], block'.get? j = block.get? j) :
    Decides block' earlier k v where
  passed := fun j hj => (h.passed j hj).congr (h_agree j (List.mem_append_left _ hj))
  found := by
    rw [h_agree k (List.mem_append_right _ List.mem_cons_self)]
    exact h.found
  stops := h.stops

/-- A value without a text decides as soon as the scan comes to it. -/
theorem decides_of_error {f : Fault} (h_passed : ∀ j ∈ earlier, Passes block j)
    (h_get : block.get? k = some v) (h_text : v.fieldText = .error f) :
    Decides block earlier k v where
  passed := h_passed
  found := h_get
  stops := by
    intro t ht
    rw [h_text] at ht
    cases ht

end Decides

/-- Some key decides, or the scan passes over them all. -/
theorem exists_decides_or_passes (block : Entries) (keys : List String) :
    (∃ earlier k later v, keys = earlier ++ k :: later ∧ Decides block earlier k v)
      ∨ ∀ k ∈ keys, Passes block k := by
  induction keys with
  | nil => exact .inr (List.forall_mem_nil _)
  | cons k ks ih =>
    by_cases hk : Passes block k
    · -- the scan goes on behind this key
      rcases ih with ⟨earlier, j, later, v, rfl, h⟩ | h_all
      · refine .inl ⟨k :: earlier, j, later, v, rfl, ?_, h.found, h.stops⟩
        exact List.forall_mem_cons.mpr ⟨hk, h.passed⟩
      · exact .inr (List.forall_mem_cons.mpr ⟨hk, h_all⟩)
    · unfold Passes at hk
      push Not at hk
      obtain ⟨v, h_get, h_stops⟩ := hk
      exact .inl ⟨[], k, ks, v, rfl, List.forall_mem_nil _, h_get, h_stops⟩

/-- **A scan fails** with the fault of a value that it comes to. -/
theorem firstText_error_iff_reached (block : Entries) (keys : List String) (f : Fault) :
    firstText block keys = .error f
      ↔ ∃ earlier k later v, keys = earlier ++ k :: later ∧ (∀ j ∈ earlier, Passes block j)
          ∧ block.get? k = some v ∧ v.fieldText = .error f := by
  constructor
  · intro h_fails
    rcases exists_decides_or_passes block keys with ⟨earlier, k, later, v, rfl, h⟩ | h_all
    · refine ⟨earlier, k, later, v, rfl, h.passed, h.found, ?_⟩
      rw [h.firstText_eq] at h_fails
      cases h_text : v.fieldText with
      | ok t =>
        rw [h_text] at h_fails
        cases h_fails
      | error g =>
        rw [h_text] at h_fails
        exact congrArg _ (Except.error.inj h_fails)
    · rw [← List.append_nil keys, firstText_append_of_passes h_all] at h_fails
      cases h_fails
  · rintro ⟨earlier, k, later, v, rfl, h_passed, h_get, h_text⟩
    rw [(decides_of_error h_passed h_get h_text).firstText_eq, h_text]
    rfl

/-! ### What is read -/

/-- The entries under the keys. -/
def entriesUnder (keys : List String) (block : Entries) : Entries :=
  block.filter fun e => keys.any fun k => e.1.same (.text k)

theorem get?_entriesUnder {keys : List String} {k : String} (hk : k ∈ keys) (block : Entries) :
    (entriesUnder keys block).get? k = block.get? k :=
  Entries.find?_filter block fun _ => List.any_eq_true.mpr ⟨k, hk, Value.same_text_self k⟩

/-- Neither the order of the entries matters, nor any entry under another key. -/
theorem get?_of_perm {keys : List String} {block block' : Entries} (hd : block.Distinct)
    (hd' : block'.Distinct) (h_perm : (entriesUnder keys block').Perm (entriesUnder keys block))
    {k : String} (hk : k ∈ keys) : block'.get? k = block.get? k :=
  calc block'.get? k
      = (entriesUnder keys block').get? k := (get?_entriesUnder hk block').symm
    _ = (entriesUnder keys block).get? k :=
        Entries.find?_perm (List.Pairwise.filter _ hd') (List.Pairwise.filter _ hd) h_perm k
    _ = block.get? k := get?_entriesUnder hk block

/-- **Only texts count** of the values that a scan reads. -/
theorem firstText_congr_text {block block' : Entries} {keys : List String}
    (h_texts : ∀ k ∈ keys,
      (block'.get? k).map Value.fieldText = (block.get? k).map Value.fieldText) :
    firstText block' keys = firstText block keys := by
  induction keys with
  | nil => rfl
  | cons k ks ih =>
    rw [List.forall_mem_cons] at h_texts
    obtain ⟨h_text, h_rest⟩ := h_texts
    have h_first : firstText block' [k] = firstText block [k] := by
      cases h_get : block.get? k with
      | none =>
        rw [h_get, Option.map_none, Option.map_eq_none_iff] at h_text
        rw [firstText_of_absent [] h_get, firstText_of_absent [] h_text]
        rfl
      | some v =>
        rw [h_get, Option.map_some, Option.map_eq_some_iff] at h_text
        obtain ⟨v', h_get', h_same⟩ := h_text
        rw [firstText_singleton h_get, firstText_singleton h_get', h_same]
    calc firstText block' (k :: ks)
        = (firstText block' [k]).bind fun t => if t = "" then firstText block' ks else .ok t :=
          firstText_append block' [k] ks
      _ = (firstText block [k]).bind fun t => if t = "" then firstText block ks else .ok t := by
          rw [h_first, ih h_rest]
      _ = firstText block (k :: ks) := (firstText_append block [k] ks).symm

/-- **The fault of a block** is that of the first field that cannot be read. -/
theorem faultOf_ofBlock (block : Entries) :
    faultOf (ofBlock block) = fields.findSome? fun keys => faultOf (firstText block keys) := by
  have h_fields : (fields.findSome? fun keys => faultOf (firstText block keys))
      = (faultOf (firstText block contentTypeKeys)).or
          ((faultOf (firstText block schemaKeys)).or (faultOf (firstText block versionKeys))) := by
    unfold fields
    rw [List.findSome?_cons, List.findSome?_cons, List.findSome?_cons, List.findSome?_nil]
    cases faultOf (firstText block contentTypeKeys) <;>
      cases faultOf (firstText block schemaKeys) <;>
      cases faultOf (firstText block versionKeys) <;> rfl
  rw [h_fields]
  exact faultOf_bind fun contentType => faultOf_bind fun schema => faultOf_map _ _

/-- **What decides a field.** The first key under which a value stands whose text fails or is not
blank gives the outcome, and nothing behind it is looked at; without such a key there is no text. So
a scan fails exactly if it comes to a value without a text. A text that it gives is trimmed. Only
the entries under the keys matter, and not their order. A block cannot be read exactly if one of its
fields cannot, and the first of them gives the fault. -/
theorem firstText_decided (block : Entries) (keys : List String) :
    ((∃ earlier k later v, keys = earlier ++ k :: later ∧ Decides block earlier k v
          ∧ firstText block keys = v.fieldText.map trimBlank
          ∧ ∀ block' : Entries, (∀ j ∈ earlier ++ [k], block'.get? j = block.get? j) →
              firstText block' keys = firstText block keys)
        ∨ (∀ k ∈ keys, Passes block k) ∧ firstText block keys = .ok "")
      ∧ (∀ f, firstText block keys = .error f
          ↔ ∃ earlier k later v, keys = earlier ++ k :: later ∧ (∀ j ∈ earlier, Passes block j)
              ∧ block.get? k = some v ∧ v.fieldText = .error f)
      ∧ (∀ t, firstText block keys = .ok t → trimBlank t = t)
      ∧ (∀ block' : Entries, block.Distinct → block'.Distinct →
          (entriesUnder keys block').Perm (entriesUnder keys block) →
          firstText block' keys = firstText block keys)
      ∧ faultOf (ofBlock block) = fields.findSome? fun ks => faultOf (firstText block ks) := by
  refine ⟨?_, firstText_error_iff_reached block keys, fun t => firstText_trimmed,
    fun block' hd hd' h_perm => firstText_congr fun k hk => get?_of_perm hd hd' h_perm hk,
    faultOf_ofBlock block⟩
  rcases exists_decides_or_passes block keys with ⟨earlier, k, later, v, rfl, h⟩ | h_all
  · refine .inl ⟨earlier, k, later, v, rfl, h, h.firstText_eq later, fun block' h_agree => ?_⟩
    rw [(h.congr h_agree).firstText_eq, h.firstText_eq]
  · refine .inr ⟨h_all, ?_⟩
    rw [← List.append_nil keys, firstText_append_of_passes h_all]
    rfl

/-- A block with spellings of all kinds: an absent value, a blank text, and two values without a
text. -/
def mixedSpellings : Entries :=
  [(.text "schemaVersion", .foreign 1 (.error (.raised .exit "stop"))), (.text "slug", .text "a"),
    (.text "schema_version", .foreign 0 (.error (.raised .value "no text"))),
    (.text "schema", .text "\u2003"), (.text "content_type", .null)]

theorem firstText_decided_mixedSpellings :
    firstText mixedSpellings schemaKeys = .error (.raised .value "no text")
      ∧ firstText mixedSpellings.reverse schemaKeys = .error (.raised .value "no text")
      ∧ faultOf (ofBlock mixedSpellings) = some (.raised .value "no text") := by
  obtain ⟨-, h_error, -, h_order, h_fault⟩ := firstText_decided mixedSpellings schemaKeys
  have h_blank : ∀ j ∈ ["schema"], Passes mixedSpellings j := by
    intro j hj v hv
    obtain rfl := List.mem_singleton.mp hj
    obtain rfl := Option.some.inj hv
    exact ⟨"\u2003", rfl, by decide⟩
  -- the scan stops before it comes to the value that asks for the end of the run
  have h_first : firstText mixedSpellings schemaKeys = .error (.raised .value "no text") :=
    (h_error _).mpr ⟨["schema"], "schema_version", ["schemaVersion"], _, rfl, h_blank, rfl, rfl⟩
  refine ⟨h_first, ?_, ?_⟩
  · have hd : mixedSpellings.Distinct := Entries.distinct_ofPairs mixedSpellings
    have hd' : Entries.Distinct mixedSpellings.reverse :=
      Entries.distinct_ofPairs mixedSpellings.reverse
    have h_perm : (entriesUnder schemaKeys mixedSpellings.reverse).Perm
        (entriesUnder schemaKeys mixedSpellings) := (List.reverse_perm mixedSpellings).filter _
    rw [h_order mixedSpellings.reverse hd hd' h_perm]
    exact h_first
  · rw [h_fault]
    rfl

end Metadata

end SchemaNaming
