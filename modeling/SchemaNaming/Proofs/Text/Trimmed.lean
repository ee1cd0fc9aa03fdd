import Mathlib.Data.List.TakeWhile
import SchemaNaming.Text.Blank

/-!
# Trimmed texts

A text is trimmed if no blank stands at either of its ends. Trimming makes a text so, and it leaves
a text alone that is so already (`Text.trimmed_iff`); hence trimming twice is trimming once.

What is put between two trimmed texts does not matter for that, as long as neither of them is empty
(`Text.Trimmed.around`, `trimBlank_around`). Blanks put around a text do not matter for what is left
of it (`Text.trim_surround`, `trimBlank_surround`).
-/

namespace SchemaNaming

namespace Text

/-- No blank stands at either end. -/
structure Trimmed (cs : List Char) : Prop where
  front : ∀ c ∈ cs.head?, isBlank c = false
  back : ∀ c ∈ cs.getLast?, isBlank c = false

theorem trimLeft_eq_self {cs : List Char} (h : ∀ c ∈ cs.head?, isBlank c = false) :
    trimLeft cs = cs := by
  cases cs with
  | nil => rfl
  | cons c cs =>
    have hc : ¬ isBlank c = true := Bool.eq_false_iff.mp (h c rfl)
    exact List.dropWhile_cons_of_neg hc

theorem trimRight_eq_self {cs : List Char} (h : ∀ c ∈ cs.getLast?, isBlank c = false) :
    trimRight cs = cs := by
  unfold trimRight
  rw [trimLeft_eq_self (by rwa [List.head?_reverse]), List.reverse_reverse]

theorem front_trimLeft (cs : List Char) : ∀ c ∈ (trimLeft cs).head?, isBlank c = false := by
  intro c hc
  have h_stop := List.head?_dropWhile_not isBlank cs
  change (trimLeft cs).head? = some c at hc
  unfold trimLeft at hc
  rwa [hc] at h_stop

theorem back_trimRight (cs : List Char) : ∀ c ∈ (trimRight cs).getLast?, isBlank c = false := by
  unfold trimRight
  rw [List.getLast?_reverse]
  exact front_trimLeft cs.reverse

theorem trimRight_isPrefix (cs : List Char) : trimRight cs <+: cs := by
  have h_suffix : trimLeft cs.reverse <:+ cs.reverse := List.dropWhile_suffix isBlank
  rwa [← List.reverse_prefix, List.reverse_reverse] at h_suffix

/-- **Trimming** leaves no blank at the ends. -/
theorem trimmed_trim (cs : List Char) : Trimmed (trim cs) := by
  refine ⟨fun c hc => ?_, back_trimRight _⟩
  -- the first character has stayed the first
  obtain ⟨ds, h_rest⟩ := trimRight_isPrefix (trimLeft cs)
  refine front_trimLeft cs c ?_
  rw [← h_rest, List.head?_append]
  change (trim cs).head? = some c at hc
  unfold trim at hc
  rw [hc]
  rfl

theorem Trimmed.trim_eq {cs : List Char} (h : Trimmed cs) : trim cs = cs := by
  unfold trim
  rw [trimLeft_eq_self h.front, trimRight_eq_self h.back]

theorem trim_eq_self {cs : List Char} (h : ∀ c ∈ cs, isBlank c = false) : trim cs = cs := by
  apply Trimmed.trim_eq
  constructor
  · intro c hc
    exact h c (List.mem_of_head? hc)
  · intro c hc
    exact h c (List.mem_of_getLast? hc)

theorem trimmed_iff {cs : List Char} : Trimmed cs ↔ trim cs = cs := by
  refine ⟨Trimmed.trim_eq, fun h => ?_⟩
  rw [← h]
  exact trimmed_trim cs

/-- Two trimmed texts are the ends of a trimmed one. -/
theorem Trimmed.around {cs ds : List Char} (hc : Trimmed cs) (hd : Trimmed ds) (hc_ne : cs ≠ [])
    (hd_ne : ds ≠ []) (ms : List Char) : Trimmed (cs ++ ms ++ ds) := by
  constructor
  · intro c h
    obtain ⟨x, hx⟩ := Option.ne_none_iff_exists'.mp (mt List.head?_eq_none_iff.mp hc_ne)
    rw [List.append_assoc, List.head?_append, hx] at h
    obtain rfl := Option.some.inj h
    exact hc.front x hx
  · intro c h
    obtain ⟨x, hx⟩ := Option.ne_none_iff_exists'.mp (mt List.getLast?_eq_none_iff.mp hd_ne)
    rw [List.getLast?_append, hx] at h
    obtain rfl := Option.some.inj h
    exact hd.back x hx

theorem trimLeft_append {front : List Char} (h_front : ∀ c ∈ front, isBlank c = true)
    (cs : List Char) : trimLeft (front ++ cs) = trimLeft cs :=
  List.dropWhile_append_of_pos h_front

theorem trimRight_append {back : List Char} (h_back : ∀ c ∈ back, isBlank c = true)
    (cs : List Char) : trimRight (cs ++ back) = trimRight cs := by
  unfold trimRight
  rw [List.reverse_append, trimLeft_append fun c hc => h_back c (List.mem_reverse.mp hc)]

/-- **Blanks around a text** are trimmed away. -/
theorem trim_surround {front back : List Char} (h_front : ∀ c ∈ front, isBlank c = true)
    (h_back : ∀ c ∈ back, isBlank c = true) (cs : List Char) :
    trim (front ++ cs ++ back) = trim cs := by
  unfold trim
  rw [List.append_assoc, trimLeft_append h_front]
  unfold trimLeft
  rw [List.dropWhile_append]
  split
  · -- the text between the blanks is blank itself
    next h_empty =>
    rw [List.isEmpty_iff.mp h_empty, List.dropWhile_eq_nil_iff.mpr h_back]
  · exact trimRight_append h_back _

end Text

theorem trimBlank_eq_self_iff {s : String} : trimBlank s = s ↔ Text.Trimmed s.toList := by
  rw [Text.trimmed_iff, ← String.toList_inj, trimBlank, String.toList_ofList]

/-- Trimming twice is trimming once. -/
theorem trimBlank_trimBlank (s : String) : trimBlank (trimBlank s) = trimBlank s := by
  rw [trimBlank_eq_self_iff]
  unfold trimBlank
  rw [String.toList_ofList]
  exact Text.trimmed_trim s.toList

theorem trimBlank_surround {front back : String} (h_front : isBlankText front = true)
    (h_back : isBlankText back = true) (s : String) :
    trimBlank (front ++ s ++ back) = trimBlank s := by
  unfold trimBlank
  rw [String.toList_append, String.toList_append]
  congr 1
  exact Text.trim_surround (List.all_eq_true.mp h_front) (List.all_eq_true.mp h_back) s.toList

/-- Two trimmed texts are the ends of a trimmed one. -/
theorem trimBlank_around {s t : String} (hs : trimBlank s = s) (ht : trimBlank t = t)
    (hs_ne : s ≠ "") (ht_ne : t ≠ "") (m : String) :
    trimBlank (s ++ m ++ t) = s ++ m ++ t := by
  rw [trimBlank_eq_self_iff] at hs ht ⊢
  rw [String.toList_append, String.toList_append]
  exact hs.around ht (mt String.toList_eq_nil_iff.mp hs_ne) (mt String.toList_eq_nil_iff.mp ht_ne) _

end SchemaNaming
