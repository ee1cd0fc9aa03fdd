import SchemaNaming.Proofs.Decimal.Reading

/-!
# The text of a number that stands alone

A number that stands alone is written in positional notation as long as its size is moderate, from
`0.0001` on and below a million, and with an exponent otherwise. `Decimal.moderate_iff` ties these
bounds, which compare the number's value, to the exponent of the first digit, by which the notation
is chosen.

The main statement is `Decimal.render_standalone_canonical`: the text is read back as the number,
its notation is the one that the value calls for, and nothing in it is superfluous. In particular
different numbers have different texts.
-/

namespace SchemaNaming

namespace Decimal

/-- The number is zero, or its size is from `0.0001` on and below a million. -/
def Moderate (d : Decimal) : Prop :=
  d.coefficient = 0 ∨ 1 / 10000 ≤ |d.value| ∧ |d.value| < 1000000

theorem leading_of_zero {d : Decimal} (hd : d.coefficient = 0) : d.leading = 0 := by
  have h_exp : d.exponent = 0 := (d.canonical.resolve_left (by rw [hd]; decide)).2
  unfold leading digits
  rw [hd, h_exp]
  rfl

/-- **The bounds of positional notation**, as bounds of the value. -/
theorem moderate_iff (d : Decimal) :
    d.Moderate ↔ Style.standalone.lowest ≤ d.leading ∧ d.leading < Style.standalone.scientific := by
  unfold Moderate
  show _ ↔ -4 ≤ d.leading ∧ d.leading < 6
  by_cases hd : d.coefficient = 0
  · rw [leading_of_zero hd]
    exact iff_of_true (.inl hd) (by decide)
  · have h_low : 1 / 10000 ≤ |d.value| ↔ -4 ≤ d.leading := by
      rw [← zpow_le_abs_value_iff hd]
      norm_num
    have h_high : 1000000 ≤ |d.value| ↔ 6 ≤ d.leading := by
      rw [← zpow_le_abs_value_iff hd]
      norm_num
    rw [or_iff_right hd, h_low, ← not_le, h_high, not_le]

/-- Without a sign, a number is moderate if it is zero or between the bounds itself. -/
theorem not_negative_and_moderate_iff (d : Decimal) :
    d.negative = false ∧ d.Moderate
      ↔ d.coefficient = 0 ∧ d.negative = false ∨ 1 / 10000 ≤ d.value ∧ d.value < 1000000 := by
  have h_sign := d.value_eq_abs
  unfold Moderate
  cases h_negative : d.negative with
  | false =>
    rw [h_negative, if_neg Bool.false_ne_true, one_mul] at h_sign
    rw [← h_sign, and_iff_right rfl, and_iff_left rfl]
  | true =>
    rw [h_negative, if_pos rfl] at h_sign
    refine iff_of_false (fun h => nomatch h.1) ?_
    rintro (⟨-, h⟩ | ⟨h_low, -⟩)
    · cases h
    · have h_nonpos : d.value ≤ 0 := by
        rw [h_sign, neg_one_mul]
        exact neg_nonpos.mpr (abs_nonneg _)
      exact absurd (h_low.trans h_nonpos) (by norm_num)

/-! ### Notations -/

/-- Positional notation: digits, and perhaps a point with digits behind it. -/
def IsPositional (cs : List Char) : Prop :=
  ∃ whole fraction, whole ≠ [] ∧ AreDigits whole ∧ AreDigits fraction ∧ cs = pointed whole fraction

/-- Positional notation in which no zero is superfluous. -/
def IsTidy (cs : List Char) : Prop :=
  ∃ whole fraction, IsWhole whole ∧ IsFraction fraction ∧ cs = pointed whole fraction

/-- One digit other than zero, perhaps a point with digits behind it, and an exponent with its sign,
in which no zero is superfluous. -/
def IsScientific (cs : List Char) : Prop :=
  ∃ c fraction sign es, c.isDigit = true ∧ c ≠ '0' ∧ IsFraction fraction
    ∧ (sign = '+' ∨ sign = '-') ∧ IsExponent es
    ∧ cs = pointed [c] fraction ++ 'e' :: sign :: es

theorem IsTidy.isPositional {cs : List Char} (h : IsTidy cs) : IsPositional cs := by
  obtain ⟨whole, fraction, h_whole, h_fraction, h_text⟩ := h
  exact ⟨whole, fraction, h_whole.ne, h_whole.digits, h_fraction.digits, h_text⟩

/-- The mark of the exponent is no part of positional notation. -/
theorem IsPositional.e_notMem {cs : List Char} (h : IsPositional cs) : 'e' ∉ cs := by
  obtain ⟨whole, fraction, -, h_whole, h_fraction, rfl⟩ := h
  intro h_mem
  rcases mem_pointed h_mem with h_mem | h_point | h_mem
  · exact absurd (h_whole 'e' h_mem) (by decide)
  · exact absurd h_point (by decide)
  · exact absurd (h_fraction 'e' h_mem) (by decide)

theorem IsScientific.e_mem {cs : List Char} (h : IsScientific cs) : 'e' ∈ cs := by
  obtain ⟨c, fraction, sign, es, -, -, -, -, -, rfl⟩ := h
  exact List.mem_append_right _ List.mem_cons_self

section Standalone

variable {d : Decimal}

theorem isTidy_magnitude (h : d.Moderate) : IsTidy (d.magnitude .standalone) := by
  unfold magnitude
  rw [if_pos (d.moderate_iff.mp h)]
  obtain ⟨whole, fraction, h_text, h_shows, h_fraction⟩ :=
    positional_shows Style.standalone.keepPoint d
  exact ⟨whole, fraction, h_shows.isWhole, h_fraction rfl, h_text⟩

theorem isScientific_magnitude (h : ¬ d.Moderate) : IsScientific (d.magnitude .standalone) := by
  -- the coefficient is not zero, and so it does not end in a zero
  have hd : d.coefficient ≠ 0 := fun h_zero => h (.inl h_zero)
  have h_last : d.coefficient % 10 ≠ 0 := d.canonical.resolve_right fun h_zero => hd h_zero.1
  unfold magnitude
  rw [if_neg (mt d.moderate_iff.mpr h)]
  obtain ⟨c, cs, h_text, h_digits, h_shows⟩ := scientific_shows d
  obtain ⟨es, h_exp, h_isExponent, -⟩ := exponentText_eq d.leading
  refine ⟨c, cs, _, es, h_shows.isWhole.digits c List.mem_cons_self, ?_, ⟨h_shows.areDigits, ?_⟩,
    ?_, h_isExponent, by rw [h_text, h_exp]⟩
  · rintro rfl
    refine head_toDigits hd ?_
    show d.digits.head? = some '0'
    rw [h_digits]
    rfl
  · intro h_zero
    refine getLast_toDigits h_last ?_
    show d.digits.getLast? = some '0'
    rw [h_digits, List.getLast?_cons, h_zero]
    rfl
  · by_cases h_neg : d.leading < 0
    · exact .inr (if_pos h_neg)
    · exact .inl (if_neg h_neg)

theorem isPositional_magnitude_iff : IsPositional (d.magnitude .standalone) ↔ d.Moderate := by
  constructor
  · intro h_plain
    by_contra h_not
    exact h_plain.e_notMem (isScientific_magnitude h_not).e_mem
  · intro h
    exact (isTidy_magnitude h).isPositional

end Standalone

/-! ### The text with its sign -/

/-- The text without its minus sign, if it has one. -/
def unsigned : List Char → List Char
  | '-' :: cs => cs
  | cs => cs

theorem unsigned_render (style : Style) (d : Decimal) :
    unsigned (d.render style) = d.magnitude style := by
  rw [render_eq]
  cases d.negative with
  | true => rfl
  | false =>
    obtain ⟨c, cs, h_text, hc⟩ := exists_magnitude_eq_cons style d
    rw [if_neg Bool.false_ne_true, h_text]
    unfold unsigned
    split
    · next h_minus => exact absurd (List.cons.inj h_minus).1 hc
    · rfl

theorem render_injective (style : Style) {d d' : Decimal} (h : d'.render style = d.render style) :
    d' = d := by
  have h_read : some d' = some d :=
    calc some d' = read? (d'.render style) := (read?_render style d').symm
      _ = read? (d.render style) := by rw [h]
      _ = some d := read?_render style d
  exact Option.some.inj h_read

/-- **A whole number below a million** is written by its digits alone. -/
theorem render_whole {n : Nat} (hn : n < 1000000) :
    (ofScaled false n 0).render .standalone = Nat.toDigits 10 n := by
  rcases Nat.eq_zero_or_pos n with rfl | h_pos
  · have h_zero : ofScaled false 0 0 = ⟨false, 0, 0, .inr ⟨rfl, rfl⟩⟩ :=
      ofScaled_self ⟨false, 0, 0, .inr ⟨rfl, rfl⟩⟩
    rw [h_zero]
    rfl
  · have h_moderate : (ofScaled false n 0).Moderate := by
      have h_value : |(ofScaled false n 0).value| = n := by
        rw [value_ofScaled, if_neg Bool.false_ne_true, one_mul, zpow_zero, mul_one, Nat.abs_cast]
      have h_one : (1 : ℚ) ≤ n := by exact_mod_cast h_pos
      have h_high : (n : ℚ) < 1000000 := by exact_mod_cast hn
      rw [Moderate, h_value]
      exact .inr ⟨le_trans (by norm_num) h_one, h_high⟩
    obtain ⟨k, h_number, h_exp⟩ := strip_shift n 0
    have h_ne : (strip n 0).1 ≠ 0 := by
      intro h_zero
      rw [h_zero, Nat.zero_mul] at h_number
      exact h_pos.ne h_number
    calc (ofScaled false n 0).render .standalone
        = positional false (Nat.toDigits 10 (strip n 0).1) (strip n 0).2 := by
          rw [render_eq]
          exact (if_neg Bool.false_ne_true).trans (if_pos ((moderate_iff _).mp h_moderate))
      _ = Nat.toDigits 10 (strip n 0).1 ++ List.replicate k '0' := by
          rw [h_exp h_pos.ne', Int.zero_add]
          exact List.append_nil _
      _ = Nat.toDigits 10 n := by rw [← toDigits_mul_pow h_ne, h_number]

/-- **A number that stands alone.** Its text denotes the very number, as its text inside a list
does. It is in positional notation exactly if the number is moderate, and has an exponent otherwise;
neither notation has a superfluous zero or a point without digits on both sides. No other number has
the same text. -/
theorem render_standalone_canonical (d : Decimal) :
    read? (d.render .standalone) = some d
      ∧ read? (d.render .nested) = some d
      ∧ (IsPositional (unsigned (d.render .standalone)) ↔ d.Moderate)
      ∧ (d.Moderate → IsTidy (unsigned (d.render .standalone)))
      ∧ (¬ d.Moderate → IsScientific (unsigned (d.render .standalone)))
      ∧ ∀ d' : Decimal, d'.render .standalone = d.render .standalone → d' = d := by
  refine ⟨read?_render .standalone d, read?_render .nested d, ?_⟩
  rw [unsigned_render]
  exact ⟨isPositional_magnitude_iff, isTidy_magnitude, isScientific_magnitude,
    fun d' h => render_injective .standalone h⟩

/-- A number with more digits than positional notation is used for. -/
def large : Decimal := ⟨true, 12345675, -1, .inl (by decide)⟩

theorem large_not_moderate : ¬ large.Moderate := by
  rw [moderate_iff]
  decide

theorem render_standalone_canonical_large :
    read? "-1.2345675e+06".toList = some large
      ∧ IsScientific "1.2345675e+06".toList
      ∧ ∀ d : Decimal, d.render .standalone = "-1.2345675e+06".toList → d = large := by
  have h_text : large.render .standalone = "-1.2345675e+06".toList := by decide
  obtain ⟨h_read, -, -, -, h_scientific, h_unique⟩ := render_standalone_canonical large
  rw [h_text] at h_read h_scientific h_unique
  exact ⟨h_read, h_scientific large_not_moderate, h_unique⟩

end Decimal

end SchemaNaming
