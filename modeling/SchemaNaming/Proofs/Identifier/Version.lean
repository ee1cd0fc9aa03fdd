import SchemaNaming.Identifier.Version
import SchemaNaming.Proofs.Text.Trimmed

/-!
# Which texts are version-like

The recogniser reads a text from left to right, and it knows only whether the current group has a
digit already and how many groups may still follow. What it accepts is said here by the pieces of
the text between its points: `groupsFrom_iff`, for any state that the recogniser can be in, and from
it `isVersionLike_iff`, which also lists what is refused.

* `VersionGroup` — a piece that is a group of digits;
* `CanFollow` — what the pieces ahead have to be like in a given state.
-/

namespace SchemaNaming

/-- One or more of the digits `0` to `9`. -/
structure VersionGroup (g : List Char) : Prop where
  ne : g ≠ []
  digits : ∀ c ∈ g, '0' ≤ c ∧ c ≤ '9'

instance (g : List Char) : Decidable (VersionGroup g) :=
  decidable_of_iff (g ≠ [] ∧ g.all (fun c => '0' ≤ c ∧ c ≤ '9') = true)
    ⟨fun h => ⟨h.1, fun c hc => of_decide_eq_true (List.all_eq_true.mp h.2 c hc)⟩,
      fun h => ⟨h.ne, List.all_eq_true.mpr fun c hc => decide_eq_true (h.digits c hc)⟩⟩

theorem isDigit_iff (c : Char) : c.isDigit = true ↔ '0' ≤ c ∧ c ≤ '9' := by
  unfold Char.isDigit
  rw [Bool.and_eq_true, decide_eq_true_iff, decide_eq_true_iff]
  exact Iff.rfl

/-! ### States of the recogniser -/

/-- The pieces that may lie ahead: the first one goes on with the current group, which has a digit
already if `seen` says so, and at most `more` groups come after it. -/
def CanFollow (more : Nat) (seen : Bool) : List (List Char) → Prop
  | [] => False
  | g :: gs => (∀ c ∈ g, '0' ≤ c ∧ c ≤ '9') ∧ (seen = true ∨ g ≠ []) ∧ gs.length ≤ more
      ∧ ∀ h ∈ gs, VersionGroup h

section CanFollow

variable {more : Nat} {seen : Bool} {c : Char} {gs : List (List Char)}

/-- Where a group begins, whole groups follow. -/
theorem canFollow_false_iff :
    CanFollow more false gs ↔ gs ≠ [] ∧ gs.length ≤ more + 1 ∧ ∀ g ∈ gs, VersionGroup g := by
  cases gs with
  | nil => exact iff_of_false id fun h => h.1 rfl
  | cons g gs =>
    constructor
    · rintro ⟨h_digits, h_ne, h_length, h_groups⟩
      refine ⟨List.cons_ne_nil g gs, Nat.succ_le_succ h_length, ?_⟩
      rw [List.forall_mem_cons]
      exact ⟨⟨h_ne.resolve_left Bool.false_ne_true, h_digits⟩, h_groups⟩
    · rintro ⟨-, h_length, h_groups⟩
      rw [List.forall_mem_cons] at h_groups
      obtain ⟨h_first, h_groups⟩ := h_groups
      exact ⟨h_first.digits, .inr h_first.ne, Nat.le_of_succ_le_succ h_length, h_groups⟩

/-- A group may end only if it has a digit. -/
theorem canFollow_nil_cons :
    CanFollow more seen ([] :: gs)
      ↔ seen = true ∧ gs.length ≤ more ∧ ∀ g ∈ gs, VersionGroup g := by
  constructor
  · rintro ⟨-, h_seen, h_rest⟩
    exact ⟨h_seen.resolve_right fun h_ne => h_ne rfl, h_rest⟩
  · rintro ⟨h_seen, h_rest⟩
    exact ⟨List.forall_mem_nil _, .inl h_seen, h_rest⟩

/-- After a digit the group has one. -/
theorem canFollow_of_digit (hc : c.isDigit = true) :
    CanFollow more seen (gs.modifyHead (c :: ·)) ↔ CanFollow more true gs := by
  cases gs with
  | nil => exact Iff.rfl
  | cons g gs =>
    rw [isDigit_iff] at hc
    constructor
    · rintro ⟨h_digits, -, h_rest⟩
      exact ⟨(List.forall_mem_cons.mp h_digits).2, .inl rfl, h_rest⟩
    · rintro ⟨h_digits, -, h_rest⟩
      exact ⟨List.forall_mem_cons.mpr ⟨hc, h_digits⟩, .inr (List.cons_ne_nil c g), h_rest⟩

/-- No other character can be part of a group. -/
theorem not_canFollow_of_not_digit (hc : ¬ c.isDigit = true) :
    ¬ CanFollow more seen (gs.modifyHead (c :: ·)) := by
  cases gs with
  | nil => exact id
  | cons g gs =>
    rintro ⟨h_digits, -⟩
    exact hc ((isDigit_iff c).mpr (h_digits c List.mem_cons_self))

end CanFollow

/-! ### Reading a text -/

/-- A point in front starts the pieces with an empty one, -/
theorem splitOn_point (cs : List Char) : ('.' :: cs).splitOn '.' = [] :: cs.splitOn '.' := by
  rw [List.splitOn_cons_eq_if_modifyHead, if_pos BEq.rfl]

/-- and any other character goes to the first piece. -/
theorem splitOn_of_ne {c : Char} (hc : c ≠ '.') (cs : List Char) :
    (c :: cs).splitOn '.' = (cs.splitOn '.').modifyHead (c :: ·) := by
  rw [List.splitOn_cons_eq_if_modifyHead, if_neg (mt eq_of_beq hc)]

/-- **The recogniser** accepts exactly the pieces that may follow in its state. -/
theorem groupsFrom_iff (more : Nat) (seen : Bool) (cs : List Char) :
    groupsFrom more seen cs = true ↔ CanFollow more seen (cs.splitOn '.') := by
  -- character by character: the pieces lose it, and the state changes with them
  fun_induction groupsFrom more seen cs with
  | case1 more seen =>
    rw [List.splitOn_nil, canFollow_nil_cons]
    exact ⟨fun h_seen => ⟨h_seen, Nat.zero_le more, List.forall_mem_nil _⟩, fun h => h.1⟩
  | case2 more seen c cs hc ih =>
    have h_ne : c ≠ '.' := by
      rintro rfl
      cases hc
    rw [splitOn_of_ne h_ne, canFollow_of_digit hc, ih]
  | case3 seen c cs hc h_point =>
    -- another group begins, but none is allowed
    rw [Bool.and_eq_true, decide_eq_true_iff] at h_point
    obtain ⟨rfl, -⟩ := h_point
    rw [splitOn_point, canFollow_nil_cons]
    refine iff_of_false Bool.false_ne_true ?_
    rintro ⟨-, h_length, -⟩
    exact List.splitOn_ne_nil '.' cs (List.length_eq_zero_iff.mp (Nat.le_zero.mp h_length))
  | case4 seen c cs hc h_point more ih =>
    rw [Bool.and_eq_true, decide_eq_true_iff] at h_point
    obtain ⟨rfl, h_seen⟩ := h_point
    rw [splitOn_point, canFollow_nil_cons, ih, canFollow_false_iff, and_iff_right h_seen,
      and_iff_right (List.splitOn_ne_nil '.' cs)]
  | case5 more seen c cs hc h_point =>
    refine iff_of_false Bool.false_ne_true ?_
    by_cases h_eq : c = '.'
    · -- the group would end without a digit
      subst h_eq
      rw [splitOn_point, canFollow_nil_cons]
      rintro ⟨h_seen, -⟩
      exact h_point h_seen
    · rw [splitOn_of_ne h_eq]
      exact not_canFollow_of_not_digit hc

/-- Nothing but digits and points is accepted. -/
theorem mem_of_groupsFrom {more : Nat} {seen : Bool} {cs : List Char}
    (h : groupsFrom more seen cs = true) : ∀ c ∈ cs, c.isDigit = true ∨ c = '.' := by
  fun_induction groupsFrom more seen cs with
  | case1 => nofun
  | case2 more seen c cs hc ih => exact List.forall_mem_cons.mpr ⟨.inl hc, ih h⟩
  | case3 => cases h
  | case4 seen c cs hc h_point more ih =>
    rw [Bool.and_eq_true, decide_eq_true_iff] at h_point
    exact List.forall_mem_cons.mpr ⟨.inr h_point.1, ih h⟩
  | case5 => cases h

/-- Digits are read in one go. -/
theorem groupsFrom_digits (more : Nat) {ds : List Char} (h_ne : ds ≠ [])
    (h_digits : ∀ c ∈ ds, c.isDigit = true) (seen : Bool) (cs : List Char) :
    groupsFrom more seen (ds ++ cs) = groupsFrom more true cs := by
  induction ds generalizing seen with
  | nil => exact absurd rfl h_ne
  | cons d ds ih =>
    rw [List.forall_mem_cons] at h_digits
    obtain ⟨hd, h_digits⟩ := h_digits
    have h_step : groupsFrom more seen (d :: (ds ++ cs)) = groupsFrom more true (ds ++ cs) := by
      rw [groupsFrom.eq_def]
      exact if_pos hd
    rw [List.cons_append, h_step]
    by_cases h_last : ds = []
    · rw [h_last, List.nil_append]
    · exact ih h_last h_digits true

/-- Digits alone are a group. -/
theorem groupsFrom_group (more : Nat) {ds : List Char} (h_ne : ds ≠ [])
    (h_digits : ∀ c ∈ ds, c.isDigit = true) : groupsFrom more false ds = true :=
  calc groupsFrom more false ds
      = groupsFrom more false (ds ++ []) := by rw [List.append_nil]
    _ = groupsFrom more true [] := groupsFrom_digits more h_ne h_digits false []
    _ = true := rfl

/-! ### Whole texts -/

/-- The pieces of the trimmed text between its points. There is always one. -/
def versionGroups (s : String) : List (List Char) := (trimBlank s).toList.splitOn '.'

theorem isVersionLike_eq (s : String) :
    isVersionLike s = groupsFrom 2 false (trimBlank s).toList := by
  unfold isVersionLike trimBlank
  rw [String.toList_ofList]

/-- **Version-like texts** have one, two or three pieces between their points, each of them one or
more of the digits `0` to `9`. So any other character within the trimmed text, an empty piece or a
fourth one keeps a text from being version-like, and blanks around it do not matter. -/
theorem isVersionLike_iff (s : String) :
    (isVersionLike s = true
        ↔ (1 ≤ (versionGroups s).length ∧ (versionGroups s).length ≤ 3)
          ∧ ∀ g ∈ versionGroups s, VersionGroup g)
      ∧ ((∃ c ∈ (trimBlank s).toList, c ≠ '.' ∧ ¬ ('0' ≤ c ∧ c ≤ '9'))
            ∨ [] ∈ versionGroups s ∨ 4 ≤ (versionGroups s).length →
          isVersionLike s = false)
      ∧ ∀ front back, isBlankText front = true → isBlankText back = true →
          isVersionLike (front ++ s ++ back) = isVersionLike s := by
  have h_iff : isVersionLike s = true ↔ (1 ≤ (versionGroups s).length
      ∧ (versionGroups s).length ≤ 3) ∧ ∀ g ∈ versionGroups s, VersionGroup g := by
    rw [isVersionLike_eq, groupsFrom_iff, canFollow_false_iff, and_assoc]
    exact and_congr_left' List.length_pos_iff.symm
  refine ⟨h_iff, fun h_refused => ?_, fun front back h_front h_back => ?_⟩
  · rw [Bool.eq_false_iff]
    intro h_like
    obtain ⟨⟨-, h_three⟩, h_groups⟩ := h_iff.mp h_like
    rcases h_refused with ⟨c, hc, h_ne, h_digit⟩ | h_empty | h_four
    · rw [isVersionLike_eq] at h_like
      rcases mem_of_groupsFrom h_like c hc with h | h
      · exact h_digit ((isDigit_iff c).mp h)
      · exact h_ne h
    · exact (h_groups [] h_empty).ne rfl
    · omega
  · rw [isVersionLike_eq, isVersionLike_eq, trimBlank_surround h_front h_back]

/-- Blanks of several kinds around a version, and what is refused within one. -/
theorem isVersionLike_iff_spaced :
    isVersionLike ("\u2028\x85" ++ "10.0.3" ++ "\n ") = true
      ∧ isVersionLike "1. 2" = false ∧ isVersionLike "+1" = false ∧ isVersionLike "\u0663" = false
      ∧ isVersionLike "1..2" = false ∧ isVersionLike "1.2.3.4" = false := by
  refine ⟨?_, ?_, ?_, ?_, ?_, ?_⟩
  · obtain ⟨h_iff, -, h_around⟩ := isVersionLike_iff "10.0.3"
    rw [h_around "\u2028\x85" "\n " (by decide) (by decide), h_iff]
    decide
  · exact (isVersionLike_iff "1. 2").2.1 (.inl ⟨' ', by decide, by decide, by decide⟩)
  · exact (isVersionLike_iff "+1").2.1 (.inl ⟨'+', by decide, by decide, by decide⟩)
  · exact (isVersionLike_iff "\u0663").2.1 (.inl ⟨'\u0663', by decide, by decide, by decide⟩)
  · exact (isVersionLike_iff "1..2").2.1 (.inr (.inl (by decide)))
  · exact (isVersionLike_iff "1.2.3.4").2.1 (.inr (.inr (by decide)))

end SchemaNaming
