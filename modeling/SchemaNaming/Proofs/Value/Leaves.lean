import Mathlib.Algebra.Group.Nat.Defs
import SchemaNaming.Value.Text

/-!
# When a value has a text

The text of a collection is made of the texts of its members, at every depth. So whether a value has
a text is decided by its *leaves*, the parts that hold no other values, and the fault is that of the
first leaf that has no text:

* `Value.leaves` — the leaves of a value, in the order of its text;
* `Value.leafFault?` — the fault of a leaf's text: an integer may have too many digits, a foreign
  value answers for itself, and nothing else can fail;
* `Value.fieldText_error_iff` — the text that a metadata field reads fails with the first of these
  faults, and `Value.nestedText_fault`, by induction on the value, for the text inside a collection.

`Value.IsData` says of a value that no leaf of it is foreign, as it is with everything that is read
from a file. Then too many digits are all that can fail (`Value.IsData.fieldText_error_iff`).
-/

namespace SchemaNaming

/-- The fault of a result, if it is one. -/
def faultOf {α : Type} : Except Fault α → Option Fault
  | .ok _ => none
  | .error f => some f

section FaultOf

variable {α β : Type}

theorem faultOf_eq_some_iff {x : Except Fault α} {f : Fault} :
    faultOf x = some f ↔ x = .error f := by
  cases x with
  | ok a => exact iff_of_false nofun nofun
  | error g => rw [faultOf, Option.some.injEq, Except.error.injEq]

theorem faultOf_map (g : α → β) (x : Except Fault α) : faultOf (x.map g) = faultOf x := by
  cases x <;> rfl

/-- Of two results in a row the first fault counts. -/
theorem faultOf_bind {x : Except Fault α} {g : α → Except Fault β} {f? : Option Fault}
    (h_next : ∀ a, faultOf (g a) = f?) : faultOf (x >>= g) = (faultOf x).or f? := by
  cases x with
  | ok a => exact h_next a
  | error f => rfl

end FaultOf

/-- An integer is short enough to be written if it is small enough. -/
theorem Integer.writable_iff (n : Int) : writable n = true ↔ n.natAbs < 10 ^ digitLimit := by
  unfold writable
  rw [decide_eq_true_iff]
  exact Nat.length_toDigits_le_iff (by decide) (by decide)

namespace Value

/-! ### Leaves -/

mutual
/-- The parts of the value that hold no other values. An empty collection has none. -/
def leaves : Value → List Value
  | list xs => leavesOfAll xs
  | tuple xs => leavesOfAll xs
  | map es => leavesOfEntries es
  | v => [v]

def leavesOfAll : List Value → List Value
  | [] => []
  | x :: xs => leaves x ++ leavesOfAll xs

/-- A key comes before its value. -/
def leavesOfEntries : List (Value × Value) → List Value
  | [] => []
  | (k, v) :: es => leaves k ++ (leaves v ++ leavesOfEntries es)
end

/-- The fault of the text of a value that holds no others. -/
def leafFault? : Value → Option Fault
  | int n => if Integer.writable n then none else some .tooManyDigits
  | foreign _ answer => faultOf answer
  | _ => none

theorem faultOf_intText (n : Int) : faultOf (intText n) = (int n).leafFault? := by
  rw [intText, leafFault?]
  split <;> rfl

/-- The leaf of a value that is one is the value. -/
theorem findSome?_singleton (v : Value) : [v].findSome? leafFault? = v.leafFault? := by
  rw [List.findSome?_cons]
  cases v.leafFault? <;> rfl

mutual
/-- **The text inside a collection** fails with the fault of the first leaf that has no text. -/
theorem nestedText_fault : ∀ v : Value, faultOf v.nestedText = v.leaves.findSome? leafFault?
  | null | bool _ | floating _ | text _ | bytes _ | date _ => rfl
  | int n => (faultOf_intText n).trans (findSome?_singleton (int n)).symm
  | foreign mark answer => (findSome?_singleton (foreign mark answer)).symm
  | list xs => by
    rw [nestedText, faultOf_map, leaves]
    exact nestedTexts_fault xs
  | tuple xs => by
    rw [nestedText, faultOf_map, leaves]
    exact nestedTexts_fault xs
  | map es => by
    rw [nestedText, faultOf_map, leaves]
    exact entryTexts_fault es

theorem nestedTexts_fault :
    ∀ xs : List Value, faultOf (nestedTexts xs) = (leavesOfAll xs).findSome? leafFault?
  | [] => rfl
  | x :: xs => by
    rw [nestedTexts, leavesOfAll, List.findSome?_append, ← nestedText_fault x,
      ← nestedTexts_fault xs]
    exact faultOf_bind fun s => faultOf_map _ (nestedTexts xs)

theorem entryTexts_fault :
    ∀ es : List (Value × Value),
      faultOf (entryTexts es) = (leavesOfEntries es).findSome? leafFault?
  | [] => rfl
  | (k, v) :: es => by
    rw [entryTexts, leavesOfEntries, List.findSome?_append, List.findSome?_append,
      ← nestedText_fault k, ← nestedText_fault v, ← entryTexts_fault es]
    exact faultOf_bind fun s => faultOf_bind fun t => faultOf_map _ (entryTexts es)
end

/-- **The text that a field reads** fails in the same way. -/
theorem fieldText_error_iff (v : Value) (f : Fault) :
    v.fieldText = .error f ↔ v.leaves.findSome? leafFault? = some f := by
  rw [← faultOf_eq_some_iff]
  -- absent values, truth values, numbers, texts and dates have a text of their own
  cases v with
  | null | bool | floating | text | date => exact Iff.rfl
  | int | bytes | list | tuple | map | foreign => rw [← nestedText_fault]; rfl

/-! ### Values that come from a file -/

/-- No part of the value is foreign. -/
def IsData (v : Value) : Prop := ∀ l ∈ v.leaves, ∀ mark answer, l ≠ foreign mark answer

theorem leafFault?_of_not_foreign {l : Value} (hl : ∀ mark answer, l ≠ foreign mark answer)
    {f : Fault} : l.leafFault? = some f
      ↔ f = .tooManyDigits ∧ ∃ n, l = int n ∧ 10 ^ Integer.digitLimit ≤ n.natAbs := by
  cases l with
  | foreign mark answer => exact absurd rfl (hl mark answer)
  | int n =>
    have h_long : ¬ Integer.writable n = true ↔ 10 ^ Integer.digitLimit ≤ n.natAbs := by
      rw [Integer.writable_iff, Nat.not_lt]
    rw [leafFault?]
    by_cases h : Integer.writable n = true
    · rw [if_pos h]
      refine iff_of_false nofun ?_
      rintro ⟨-, m, h_eq, hm⟩
      obtain rfl := int.inj h_eq
      exact h_long.mpr hm h
    · rw [if_neg h]
      constructor
      · intro h_fault
        exact ⟨(Option.some.inj h_fault).symm, n, rfl, h_long.mp h⟩
      · rintro ⟨rfl, -⟩
        rfl
  | _ =>
    refine iff_of_false nofun ?_
    rintro ⟨-, n, h_eq, -⟩
    cases h_eq

/-- **A value from a file** has a text unless an integer in it has too many digits. -/
theorem IsData.fieldText_error_iff {v : Value} (hv : v.IsData) (f : Fault) :
    v.fieldText = .error f
      ↔ f = .tooManyDigits ∧ ∃ n, int n ∈ v.leaves ∧ 10 ^ Integer.digitLimit ≤ n.natAbs := by
  rw [Value.fieldText_error_iff]
  constructor
  · intro h_find
    obtain ⟨l, hl, h_fault⟩ := List.exists_of_findSome?_eq_some h_find
    obtain ⟨rfl, n, rfl, hn⟩ := (leafFault?_of_not_foreign (hv l hl)).mp h_fault
    exact ⟨rfl, n, hl, hn⟩
  · rintro ⟨rfl, n, hl, hn⟩
    -- some leaf fails, and the first that does fails with this fault, too
    have h_fault : (int n).leafFault? = some .tooManyDigits :=
      (leafFault?_of_not_foreign (hv _ hl)).mpr ⟨rfl, n, rfl, hn⟩
    cases h_find : v.leaves.findSome? leafFault? with
    | none =>
      rw [List.findSome?_eq_none_iff.mp h_find _ hl] at h_fault
      cases h_fault
    | some g =>
      obtain ⟨l, hl', h_first⟩ := List.exists_of_findSome?_eq_some h_find
      rw [((leafFault?_of_not_foreign (hv l hl')).mp h_first).1]

/-! ### Parts -/

/-- What stands under a key is a part of the mapping. -/
theorem leaves_subset_of_mem {es : Entries} {e : Value × Value} (he : e ∈ es) :
    e.2.leaves ⊆ (map es).leaves := by
  rw [leaves]
  -- its leaves stand behind those of its key and of the entries before it
  induction es with
  | nil => cases he
  | cons x es ih =>
    rw [leavesOfEntries]
    intro l hl
    rcases List.mem_cons.mp he with rfl | he
    · exact List.mem_append_right _ (List.mem_append_left _ hl)
    · exact List.mem_append_right _ (List.mem_append_right _ (ih he hl))

theorem IsData.of_mem {es : Entries} (h : (map es).IsData) {e : Value × Value} (he : e ∈ es) :
    e.2.IsData :=
  fun l hl => h l (leaves_subset_of_mem he hl)

end Value

end SchemaNaming
