import Mathlib.Data.List.Basic
import SchemaNaming.Identifier.Metadata
import SchemaNaming.Proofs.Text.Trimmed

/-!
# Scans over the spellings of a field

A field of a block is read by a scan over its spellings. Absent spellings are passed over, and the
scan goes on as long as the texts that it meets are blank. This module says which values a scan asks
for their text, and that nothing else matters:

* `Metadata.deciding?` — the value that decides the scan, the first whose text fails or is not
  blank, and `firstText_eq`, which reads the outcome of the scan off it;
* `Metadata.scanned` — the values that the scan asks, up to and including that one;
* `Metadata.scannedIn` — those asked for several fields, the later ones only if the earlier fields
  could be read;
* `Metadata.ofBlock_error_iff` — reading a block fails exactly if the text of a value asked does;
* `Metadata.firstText_congr` — a scan reads nothing but what stands under its keys;
* `Metadata.firstText_append` — a scan over more keys falls back on the later ones.

The text that a scan gives is trimmed (`firstText_trimmed`), and unless it is empty it has a
character that is not blank (`firstText_not_blank`).
-/

namespace SchemaNaming

/-! ### Trimmed texts -/

/-- What is left of trimming has a character that is not blank. -/
theorem Text.exists_not_blank_of_trim {cs : List Char} (h : trim cs ≠ []) :
    ∃ c ∈ trim cs, isBlank c = false := by
  unfold trim trimRight trimLeft at h ⊢
  -- its last character is the first one that stopped the trimming from behind
  have h_rest : ((cs.dropWhile isBlank).reverse).dropWhile isBlank ≠ [] :=
    fun h_nil => h (by rw [h_nil, List.reverse_nil])
  refine ⟨_, List.mem_reverse.mpr (List.head_mem h_rest), ?_⟩
  exact List.head_dropWhile_not isBlank h_rest

theorem not_isBlankText_trimBlank {s : String} (h : (trimBlank s).isEmpty = false) :
    isBlankText (trimBlank s) = false := by
  unfold isBlankText trimBlank at *
  rw [String.toList_ofList] at *
  have h_nil : Text.trim s.toList ≠ [] := by
    intro h_nil
    rw [h_nil] at h
    cases h
  -- the text is trimmed already, so this character is one of it
  obtain ⟨c, hc, h_char⟩ := Text.exists_not_blank_of_trim h_nil
  exact List.all_eq_false.mpr ⟨c, hc, by rw [h_char]; exact Bool.false_ne_true⟩

/-- The text of the value is blank, so that a scan passes over it. -/
def Value.readsBlank (v : Value) : Bool :=
  match v.fieldText with
  | .ok t => (trimBlank t).isEmpty
  | .error _ => false

theorem Value.readsBlank_iff (v : Value) :
    v.readsBlank = true ↔ v.fieldText.map trimBlank = .ok "" := by
  unfold readsBlank
  cases v.fieldText with
  | error f => exact iff_of_false nofun nofun
  | ok t => exact String.isEmpty_iff.trans (Except.ok.injEq _ _).to_iff.symm

namespace Metadata

/-! ### One scan -/

/-- The values under the keys, in the order of the keys. -/
def candidates (block : Entries) (keys : List String) : List Value := keys.filterMap block.get?

/-- The value that decides the scan: the first whose text fails or is not blank. -/
def deciding? (block : Entries) (keys : List String) : Option Value :=
  (candidates block keys).find? fun v => !v.readsBlank

/-- The values that a scan over candidates asks for their text. -/
def asked : List Value → List Value
  | [] => []
  | v :: vs => v :: if v.readsBlank then asked vs else []

/-- The values that the scan over the keys asks for their text. -/
def scanned (block : Entries) (keys : List String) : List Value := asked (candidates block keys)

section Turns

variable {block : Entries} {k : String} (ks : List String)

/-- The scan passes over an absent key, -/
theorem firstText_of_absent (h_get : block.get? k = none) :
    firstText block (k :: ks) = firstText block ks := by
  rw [firstText, h_get]

variable {v : Value} (h_get : block.get? k = some v)

include h_get

/-- and over a blank text. -/
theorem firstText_of_blank (h_blank : v.readsBlank = true) :
    firstText block (k :: ks) = firstText block ks := by
  unfold Value.readsBlank at h_blank
  rw [firstText, h_get]
  dsimp only
  cases h_text : v.fieldText with
  | error f =>
    rw [h_text] at h_blank
    cases h_blank
  | ok t =>
    rw [h_text] at h_blank
    exact if_pos h_blank

/-- Any other text is the outcome, as a fault is. -/
theorem firstText_of_not_blank (h_blank : v.readsBlank = false) :
    firstText block (k :: ks) = v.fieldText.map trimBlank := by
  unfold Value.readsBlank at h_blank
  rw [firstText, h_get]
  dsimp only
  cases h_text : v.fieldText with
  | error f => rfl
  | ok t =>
    rw [h_text] at h_blank
    exact if_neg (Bool.eq_false_iff.mp h_blank)

end Turns

/-- **The outcome of a scan** is that of the value that decides it. -/
theorem firstText_eq (block : Entries) (keys : List String) :
    firstText block keys
      = (deciding? block keys).elim (.ok "") fun v => v.fieldText.map trimBlank := by
  unfold deciding? candidates
  -- key by key: the scan passes over it, or its value decides
  induction keys with
  | nil => rfl
  | cons k ks ih =>
    cases h_get : block.get? k with
    | none => rw [firstText_of_absent ks h_get, List.filterMap_cons_none h_get, ih]
    | some v =>
      rw [List.filterMap_cons_some h_get, List.find?_cons]
      cases h_blank : v.readsBlank with
      | true =>
        rw [firstText_of_blank ks h_get h_blank]
        exact ih
      | false =>
        rw [firstText_of_not_blank ks h_get h_blank]
        rfl

/-- Among the values asked only the last one, which decides, can fail. -/
theorem exists_asked_error_iff (vs : List Value) (f : Fault) :
    (∃ v ∈ asked vs, v.fieldText = .error f)
      ↔ ∃ v, vs.find? (fun v => !v.readsBlank) = some v ∧ v.fieldText = .error f := by
  induction vs with
  | nil => exact iff_of_false (fun ⟨_, hv, _⟩ => nomatch hv) fun ⟨_, hv, _⟩ => nomatch hv
  | cons w vs ih =>
    rw [asked, List.find?_cons]
    cases h_blank : w.readsBlank with
    | true =>
      -- a value with a blank text does not fail
      have h_fine : w.fieldText ≠ .error f := by
        intro h_text
        rw [Value.readsBlank_iff, h_text] at h_blank
        cases h_blank
      rw [if_pos rfl, List.exists_mem_cons_iff, or_iff_right h_fine]
      exact ih
    | false =>
      -- the scan stops here, so this is the only value in question
      rw [if_neg Bool.false_ne_true, List.exists_mem_cons_iff]
      constructor
      · rintro (h_text | ⟨_, hv, -⟩)
        · exact ⟨w, rfl, h_text⟩
        · cases hv
      · rintro ⟨v, h_find, h_text⟩
        obtain rfl := Option.some.inj h_find
        exact .inl h_text

/-- **A scan fails** exactly if the text of a value that it asks does, and with the same fault. -/
theorem firstText_error_iff (block : Entries) (keys : List String) (f : Fault) :
    firstText block keys = .error f ↔ ∃ v ∈ scanned block keys, v.fieldText = .error f := by
  unfold scanned
  rw [exists_asked_error_iff, firstText_eq, deciding?]
  cases (candidates block keys).find? fun v => !v.readsBlank with
  | none => exact iff_of_false nofun fun ⟨_, hv, _⟩ => nomatch hv
  | some v =>
    dsimp only [Option.elim_some]
    cases h_text : v.fieldText with
    | ok t =>
      refine iff_of_false nofun fun ⟨w, hw, h_fault⟩ => ?_
      obtain rfl := Option.some.inj hw
      rw [h_text] at h_fault
      cases h_fault
    | error g =>
      constructor
      · intro h_map
        exact ⟨v, rfl, by rw [h_text, Except.error.inj h_map]⟩
      · rintro ⟨w, hw, h_fault⟩
        obtain rfl := Option.some.inj hw
        rw [h_text] at h_fault
        exact congrArg _ (Except.error.inj h_fault)

/-- A text that a scan finds is not blank. -/
theorem firstText_not_blank {block : Entries} {keys : List String} {t : String}
    (ht : firstText block keys = .ok t) : t = "" ∨ isBlankText t = false := by
  rw [firstText_eq] at ht
  cases h_find : deciding? block keys with
  | none =>
    rw [h_find] at ht
    exact .inl (Except.ok.inj ht).symm
  | some v =>
    rw [h_find, Option.elim_some] at ht
    cases h_text : v.fieldText with
    | error f =>
      rw [h_text] at ht
      cases ht
    | ok u =>
      rw [h_text] at ht
      obtain rfl := Except.ok.inj ht
      -- otherwise the value would not have decided
      have h_stop := List.find?_some h_find
      unfold Value.readsBlank at h_stop
      rw [h_text, Bool.not_eq_true'] at h_stop
      exact .inr (not_isBlankText_trimBlank h_stop)

/-- The text that a scan gives is trimmed. -/
theorem firstText_trimmed {block : Entries} {keys : List String} {t : String}
    (ht : firstText block keys = .ok t) : trimBlank t = t := by
  rw [firstText_eq] at ht
  cases h_find : deciding? block keys with
  | none =>
    rw [h_find] at ht
    obtain rfl := Except.ok.inj ht
    rfl
  | some v =>
    rw [h_find, Option.elim_some] at ht
    cases h_text : v.fieldText with
    | error f =>
      rw [h_text] at ht
      cases ht
    | ok u =>
      rw [h_text] at ht
      obtain rfl := Except.ok.inj ht
      exact trimBlank_trimBlank u

theorem mem_of_asked {vs : List Value} {v : Value} (hv : v ∈ asked vs) : v ∈ vs := by
  induction vs with
  | nil => exact hv
  | cons w vs ih =>
    rw [asked] at hv
    rcases List.mem_cons.mp hv with rfl | hv
    · exact List.mem_cons_self
    · split at hv
      · exact List.mem_cons_of_mem w (ih hv)
      · cases hv

/-- What a scan asks stands in the block. -/
theorem exists_mem_of_scanned {block : Entries} {keys : List String} {v : Value}
    (hv : v ∈ scanned block keys) : ∃ e ∈ block, e.2 = v := by
  obtain ⟨k, -, h_get⟩ := List.mem_filterMap.mp (mem_of_asked hv)
  obtain ⟨e, h_find, rfl⟩ := Option.map_eq_some_iff.mp h_get
  exact ⟨e, List.mem_of_find?_eq_some h_find, rfl⟩

/-! ### Scans over parts of the keys -/

/-- **A scan reads nothing** but what stands under its keys. -/
theorem firstText_congr {block block' : Entries} {keys : List String}
    (h_agree : ∀ k ∈ keys, block'.get? k = block.get? k) :
    firstText block' keys = firstText block keys := by
  have h_cand : candidates block' keys = candidates block keys := List.filterMap_congr h_agree
  rw [firstText_eq, firstText_eq, deciding?, deciding?, h_cand]

/-- The later keys are a fallback of the earlier ones: they are scanned only if these give no text,
and then the outcome is theirs. -/
theorem firstText_append (block : Entries) (ks ls : List String) :
    firstText block (ks ++ ls)
      = (firstText block ks).bind fun t => if t = "" then firstText block ls else .ok t := by
  induction ks with
  | nil => rfl
  | cons k ks ih =>
    rw [List.cons_append]
    cases h_get : block.get? k with
    | none => rw [firstText_of_absent _ h_get, firstText_of_absent _ h_get, ih]
    | some v =>
      cases h_blank : v.readsBlank with
      | true => rw [firstText_of_blank _ h_get h_blank, firstText_of_blank _ h_get h_blank, ih]
      | false =>
        rw [firstText_of_not_blank _ h_get h_blank, firstText_of_not_blank _ h_get h_blank]
        rw [Bool.eq_false_iff, ne_eq, Value.readsBlank_iff] at h_blank
        -- a fault is the outcome of both scans, and so is a text, as it is not empty
        cases h_text : v.fieldText.map trimBlank with
        | error f => rfl
        | ok t =>
          rw [h_text, Except.ok.injEq] at h_blank
          exact (if_neg h_blank).symm

theorem firstText_append_of_empty {block : Entries} {ks : List String}
    (h_empty : firstText block ks = .ok "") (ls : List String) :
    firstText block (ks ++ ls) = firstText block ls := by
  rw [firstText_append, h_empty]
  rfl

theorem firstText_append_of_ne {block : Entries} {ks : List String} {t : String}
    (h_text : firstText block ks = .ok t) (h_ne : t ≠ "") (ls : List String) :
    firstText block (ks ++ ls) = .ok t := by
  rw [firstText_append, h_text]
  exact if_neg h_ne

/-- Where the scan over all keys gives a text, so does the one over the earlier keys. Either this is
that text already, or it is empty and the text is that of the later keys. -/
theorem firstText_append_ok {block : Entries} {ks ls : List String} {t : String}
    (h_text : firstText block (ks ++ ls) = .ok t) :
    ∃ s, firstText block ks = .ok s
      ∧ ((s ≠ "" ∧ t = s) ∨ (s = "" ∧ firstText block ls = .ok t)) := by
  cases h_first : firstText block ks with
  | error f =>
    rw [firstText_append, h_first] at h_text
    cases h_text
  | ok s =>
    refine ⟨s, rfl, ?_⟩
    by_cases hs : s = ""
    · subst hs
      rw [firstText_append_of_empty h_first] at h_text
      exact .inr ⟨rfl, h_text⟩
    · rw [firstText_append_of_ne h_first hs] at h_text
      exact .inl ⟨hs, (Except.ok.inj h_text).symm⟩

/-- A scan gives no text exactly if none of its keys does. -/
theorem firstText_eq_empty_iff (block : Entries) (keys : List String) :
    firstText block keys = .ok "" ↔ ∀ k ∈ keys, firstText block [k] = .ok "" := by
  induction keys with
  | nil => exact iff_of_true rfl (List.forall_mem_nil _)
  | cons k ks ih =>
    rw [List.forall_mem_cons, ← ih]
    constructor
    · intro h_all
      change firstText block ([k] ++ ks) = .ok "" at h_all
      obtain ⟨s, h_first, ⟨h_ne, h_eq⟩ | ⟨rfl, h_rest⟩⟩ := firstText_append_ok h_all
      · exact absurd h_eq.symm h_ne
      · exact ⟨h_first, h_rest⟩
    · rintro ⟨h_first, h_rest⟩
      exact (firstText_append_of_empty h_first ks).trans h_rest

/-- A single key gives the trimmed text of its value. -/
theorem firstText_singleton {block : Entries} {k : String} {v : Value}
    (h_get : block.get? k = some v) : firstText block [k] = v.fieldText.map trimBlank := by
  cases h_blank : v.readsBlank with
  | false => exact firstText_of_not_blank [] h_get h_blank
  | true =>
    rw [firstText_of_blank [] h_get h_blank]
    exact ((Value.readsBlank_iff v).mp h_blank).symm

/-! ### The fields of a block -/

/-- The spellings of the fields, in the order in which the fields are read. -/
def fields : List (List String) := [contentTypeKeys, schemaKeys, versionKeys]

/-- The values that the scans for the fields ask for their texts. A field is scanned only if all
before it could be read. -/
def scannedIn (block : Entries) : List (List String) → List Value
  | [] => []
  | keys :: later =>
    scanned block keys
      ++ if (firstText block keys).isOk then scannedIn block later else []

theorem exists_scannedIn_error_iff (block : Entries) (keys : List String)
    (later : List (List String)) (f : Fault) :
    (∃ v ∈ scannedIn block (keys :: later), v.fieldText = .error f)
      ↔ firstText block keys = .error f
        ∨ (firstText block keys).isOk ∧ ∃ v ∈ scannedIn block later, v.fieldText = .error f := by
  rw [scannedIn, firstText_error_iff]
  -- the value is one of this field, or one of a later field that the reading got to
  constructor
  · rintro ⟨v, hv, h_text⟩
    rcases List.mem_append.mp hv with hv | hv
    · exact .inl ⟨v, hv, h_text⟩
    · split at hv
      · exact .inr ⟨‹_›, v, hv, h_text⟩
      · cases hv
  · rintro (⟨v, hv, h_text⟩ | ⟨h_ok, v, hv, h_text⟩)
    · exact ⟨v, List.mem_append_left _ hv, h_text⟩
    · rw [if_pos h_ok]
      exact ⟨v, List.mem_append_right _ hv, h_text⟩

/-- **Reading a block fails** exactly if the text of a value asked does, and with the same fault. -/
theorem ofBlock_error_iff (block : Entries) (f : Fault) :
    ofBlock block = .error f ↔ ∃ v ∈ scannedIn block fields, v.fieldText = .error f := by
  unfold fields
  rw [exists_scannedIn_error_iff, exists_scannedIn_error_iff, exists_scannedIn_error_iff]
  have h_end : ¬ ∃ v ∈ scannedIn block [], v.fieldText = .error f := fun ⟨_, hv, _⟩ => nomatch hv
  -- the fields are read one after another, and the first fault is the answer
  unfold ofBlock
  cases firstText block contentTypeKeys with
  | error g => simp [bind, Except.bind, Except.isOk, Except.toBool]
  | ok contentType =>
    cases firstText block schemaKeys with
    | error g => simp [bind, Except.bind, Except.isOk, Except.toBool]
    | ok schema =>
      cases firstText block versionKeys with
      | error g => simp [bind, Except.bind, Except.isOk, Except.toBool]
      | ok version =>
        simp [bind, Except.bind, pure, Except.pure, Except.isOk, Except.toBool, h_end]

/-- The fields of a block that could be read are what their scans found. -/
theorem ofBlock_ok {block : Entries} {m : Metadata} (hm : ofBlock block = .ok m) :
    firstText block contentTypeKeys = .ok m.contentType
      ∧ firstText block schemaKeys = .ok m.schema
      ∧ firstText block versionKeys = .ok m.version := by
  unfold ofBlock at hm
  cases h_type : firstText block contentTypeKeys with
  | error f =>
    rw [h_type] at hm
    cases hm
  | ok contentType =>
    cases h_schema : firstText block schemaKeys with
    | error f =>
      rw [h_type, h_schema] at hm
      cases hm
    | ok schema =>
      cases h_version : firstText block versionKeys with
      | error f =>
        rw [h_type, h_schema, h_version] at hm
        cases hm
      | ok version =>
        rw [h_type, h_schema, h_version] at hm
        obtain rfl := Except.ok.inj hm
        exact ⟨rfl, rfl, rfl⟩

theorem exists_mem_of_scannedIn {block : Entries} {fields : List (List String)} {v : Value}
    (hv : v ∈ scannedIn block fields) : ∃ e ∈ block, e.2 = v := by
  induction fields with
  | nil => cases hv
  | cons keys later ih =>
    rw [scannedIn] at hv
    rcases List.mem_append.mp hv with hv | hv
    · exact exists_mem_of_scanned hv
    · split at hv
      · exact ih hv
      · cases hv

end Metadata

end SchemaNaming
