import Mathlib.Algebra.Order.Field.Power
import Mathlib.Algebra.Order.Ring.Abs
import Mathlib.Data.Rat.Cast.Order
import Mathlib.Tactic.NormNum
import Mathlib.Tactic.Positivity
import Mathlib.Tactic.Ring
import SchemaNaming.Decimal

/-!
# Digits and the numbers they denote

A decimal is a sign, a coefficient and an exponent; its text is made of the coefficient's digits.
This module ties the three views of a number together:

* the digits of a number are read as that number (`Decimal.ofDigits_toDigits`), zeros in front of
  them count for nothing, and zeros behind them for powers of ten
  (`Decimal.ofDigits_between_zeros`);
* a power of ten may stand in the coefficient or in the exponent (`Decimal.ofScaled_mul_pow`,
  `Decimal.strip_shift`);
* `Decimal.value` is the number that a decimal denotes, and the exponent of the first digit tells
  how large it is (`Decimal.zpow_le_abs_value_iff`).

Canonical decimals carry no superfluous zero, and so their digits neither start with one nor end in
one (`Decimal.head_toDigits`, `Decimal.getLast_toDigits`).
-/

namespace SchemaNaming

namespace Decimal

/-! ### Digits of a number -/

/-- Decimal digits and nothing else. -/
def AreDigits (ds : List Char) : Prop := ∀ c ∈ ds, c.isDigit = true

theorem AreDigits.append {ds es : List Char} (hd : AreDigits ds) (he : AreDigits es) :
    AreDigits (ds ++ es) := by
  intro c hc
  rcases List.mem_append.mp hc with hc | hc
  · exact hd c hc
  · exact he c hc

theorem areDigits_zeros (k : Nat) : AreDigits (List.replicate k '0') := by
  intro c hc
  rw [List.eq_of_mem_replicate hc]
  rfl

theorem areDigits_toDigits (n : Nat) : AreDigits (Nat.toDigits 10 n) :=
  fun _ hc => Nat.isDigit_of_mem_toDigits (by decide) (by decide) hc

/-- Digits are read one after another. -/
theorem ofDigits_append (ds es : List Char) :
    ofDigits (ds ++ es) = 10 ^ es.length * ofDigits ds + ofDigits es :=
  calc ofDigits (ds ++ es)
      = Nat.ofDigitChars 10 es (Nat.ofDigitChars 10 ds 0) := Nat.ofDigitChars_append 0
    _ = 10 ^ es.length * ofDigits ds + ofDigits es := Nat.ofDigitChars_eq_ofDigitChars_zero

theorem ofDigits_toDigits (n : Nat) : ofDigits (Nat.toDigits 10 n) = n :=
  Nat.ofDigitChars_ten_toDigits

theorem ofDigits_zeros (k : Nat) : ofDigits (List.replicate k '0') = 0 := by
  show Nat.ofDigitChars 10 (List.replicate k '0') 0 = 0
  rw [Nat.ofDigitChars_replicate_zero, Nat.mul_zero]

/-- Zeros in front of digits count for nothing, and each one behind them for a factor of ten. -/
theorem ofDigits_between_zeros (i k : Nat) (ds : List Char) :
    ofDigits (List.replicate i '0' ++ ds ++ List.replicate k '0') = ofDigits ds * 10 ^ k := by
  rw [ofDigits_append, ofDigits_append, ofDigits_zeros, ofDigits_zeros, List.length_replicate,
    Nat.mul_zero, Nat.zero_add, Nat.add_zero, Nat.mul_comm]

/-- The notation of a number other than zero does not start with a zero, -/
theorem head_toDigits {n : Nat} (hn : n ≠ 0) : (Nat.toDigits 10 n).head? ≠ some '0' := by
  -- by the number of digits: the first one stays the first when another is put behind them
  induction n using Nat.strong_induction_on with
  | _ n ih =>
    by_cases h_small : n < 10
    · rw [Nat.toDigits_of_lt_base h_small, List.head?_cons]
      intro h_zero
      exact hn (Nat.digitChar_eq_zero.mp (Option.some.inj h_zero))
    · rw [Nat.toDigits_of_base_le (by decide) (Nat.le_of_not_lt h_small),
        List.head?_append_of_ne_nil _ Nat.toDigits_ne_nil]
      exact ih (n / 10) (by omega) (by omega)

/-- and it ends in one only if the number is a multiple of ten. -/
theorem getLast_toDigits {n : Nat} (hn : n % 10 ≠ 0) :
    (Nat.toDigits 10 n).getLast? ≠ some '0' := by
  have h_last : (Nat.toDigits 10 n).getLast? = some (n % 10).digitChar := by
    rw [Nat.toDigits_eq_if (by decide)]
    split
    · next h_small =>
      rw [Nat.mod_eq_of_lt h_small]
      rfl
    · exact List.getLast?_concat
  rw [h_last]
  intro h_zero
  exact hn (Nat.digitChar_eq_zero.mp (Option.some.inj h_zero))

/-- A power of ten puts zeros behind the digits. -/
theorem toDigits_mul_pow {n : Nat} (hn : n ≠ 0) (k : Nat) :
    Nat.toDigits 10 (n * 10 ^ k) = Nat.toDigits 10 n ++ List.replicate k '0' := by
  induction k with
  | zero => rw [Nat.pow_zero, Nat.mul_one, List.replicate_zero, List.append_nil]
  | succ k ih =>
    have h_pos : 0 < n * 10 ^ k := Nat.mul_pos (Nat.pos_of_ne_zero hn) (Nat.pow_pos (by decide))
    calc Nat.toDigits 10 (n * 10 ^ (k + 1))
        = Nat.toDigits 10 (10 * (n * 10 ^ k) + 0) := by ring_nf
      _ = Nat.toDigits 10 (n * 10 ^ k) ++ Nat.toDigits 10 0 :=
          (Nat.toDigits_append_toDigits (by decide) h_pos (by decide)).symm
      _ = Nat.toDigits 10 n ++ List.replicate (k + 1) '0' := by
          rw [ih, List.replicate_succ', ← List.append_assoc]
          rfl

theorem pow_le_iff_lt_length {n : Nat} (hn : n ≠ 0) (k : Nat) :
    10 ^ k ≤ n ↔ k < (Nat.toDigits 10 n).length := by
  rcases Nat.eq_zero_or_pos k with rfl | hk
  · exact iff_of_true (Nat.pos_of_ne_zero hn) Nat.length_toDigits_pos
  · rw [← not_iff_not, Nat.not_le, Nat.not_lt]
    exact (Nat.length_toDigits_le_iff (by decide) hk).symm

/-! ### Powers of ten in the coefficient and in the exponent -/

theorem ofScaled_congr (negative : Bool) {n n' : Nat} {e e' : Int} (h : strip n e = strip n' e') :
    ofScaled negative n e = ofScaled negative n' e' := by
  unfold ofScaled
  congr 1
  · rw [h]
  · rw [h]

theorem strip_of_canonical {n : Nat} {e : Int} (h : n % 10 ≠ 0 ∨ n = 0 ∧ e = 0) :
    strip n e = (n, e) := by
  unfold strip
  rcases h with h_last | ⟨rfl, rfl⟩
  · have hn : n ≠ 0 := by
      rintro rfl
      exact h_last rfl
    rw [if_neg hn, if_neg h_last]
  · rfl

/-- A decimal is made of its own coefficient and exponent. -/
theorem ofScaled_self (d : Decimal) : ofScaled d.negative d.coefficient d.exponent = d := by
  have h_strip := strip_of_canonical d.canonical
  obtain ⟨negative, coefficient, exponent, canonical⟩ := d
  unfold ofScaled
  congr 1
  · rw [h_strip]
  · rw [h_strip]

theorem strip_mul_ten {n : Nat} (hn : n ≠ 0) (e : Int) : strip (n * 10) e = strip n (e + 1) := by
  conv_lhs => unfold strip
  rw [if_neg (by omega), if_pos (by omega), Nat.mul_div_cancel n (by decide)]

theorem strip_mul_pow (n : Nat) (e : Int) (k : Nat) : strip (n * 10 ^ k) e = strip n (e + k) := by
  by_cases hn : n = 0
  · -- zero has no digits to move
    subst hn
    rw [Nat.zero_mul]
    unfold strip
    rfl
  · induction k generalizing e with
    | zero => rw [Nat.pow_zero, Nat.mul_one, Int.natCast_zero, Int.add_zero]
    | succ k ih =>
      have h_ne : n * 10 ^ k ≠ 0 := Nat.mul_ne_zero hn (Nat.pow_pos (by decide)).ne'
      calc strip (n * 10 ^ (k + 1)) e
          = strip (n * 10 ^ k * 10) e := by rw [Nat.pow_succ, Nat.mul_assoc]
        _ = strip (n * 10 ^ k) (e + 1) := strip_mul_ten h_ne e
        _ = strip n (e + 1 + k) := ih (e + 1)
        _ = strip n (e + (k + 1 : Nat)) := by congr 1; omega

/-- The exponent grows by the number of zeros that the coefficient loses. -/
theorem strip_shift (n : Nat) (e : Int) :
    ∃ k : Nat, (strip n e).1 * 10 ^ k = n ∧ (n ≠ 0 → (strip n e).2 = e + k) := by
  fun_induction strip n e with
  | case1 e => exact ⟨0, rfl, fun h_ne => absurd rfl h_ne⟩
  | case2 n e hn h_ten ih =>
    obtain ⟨k, h_number, h_exp⟩ := ih
    refine ⟨k + 1, ?_, fun _ => ?_⟩
    · calc (strip (n / 10) (e + 1)).1 * 10 ^ (k + 1)
          = (strip (n / 10) (e + 1)).1 * 10 ^ k * 10 := by rw [Nat.pow_succ, Nat.mul_assoc]
        _ = n / 10 * 10 := by rw [h_number]
        _ = n := Nat.div_mul_cancel (Nat.dvd_of_mod_eq_zero h_ten)
    · rw [h_exp (by omega)]
      omega
  | case3 n e hn h_ten => exact ⟨0, Nat.mul_one n, fun _ => (Int.add_zero e).symm⟩

/-- **A power of ten** may stand in the coefficient or in the exponent. -/
theorem ofScaled_mul_pow (negative : Bool) (n : Nat) (e : Int) (k : Nat) :
    ofScaled negative (n * 10 ^ k) e = ofScaled negative n (e + k) :=
  ofScaled_congr negative (strip_mul_pow n e k)

/-! ### Values -/

/-- The number that the decimal denotes. -/
def value (d : Decimal) : ℚ := (if d.negative then -1 else 1) * (d.coefficient * 10 ^ d.exponent)

theorem abs_value (d : Decimal) : |d.value| = d.coefficient * 10 ^ d.exponent := by
  have h_nonneg : (0 : ℚ) ≤ d.coefficient * 10 ^ d.exponent := by positivity
  unfold value
  rw [abs_mul, abs_of_nonneg h_nonneg]
  cases d.negative with
  | false => rw [if_neg Bool.false_ne_true, abs_one, one_mul]
  | true => rw [if_pos rfl, abs_neg, abs_one, one_mul]

/-- A decimal is its size with its sign. -/
theorem value_eq_abs (d : Decimal) : d.value = (if d.negative then -1 else 1) * |d.value| := by
  rw [abs_value]
  rfl

/-- **The exponent of the first digit** is that of the largest power of ten which the number
reaches. -/
theorem zpow_le_abs_value_iff {d : Decimal} (hd : d.coefficient ≠ 0) (k : ℤ) :
    (10 : ℚ) ^ k ≤ |d.value| ↔ k ≤ d.leading := by
  have h_pos : (0 : ℚ) < 10 ^ d.exponent := zpow_pos (by norm_num) _
  -- the exponent aside, a power of ten is compared with the coefficient
  have h_scale : (10 : ℚ) ^ k ≤ |d.value| ↔ (10 : ℚ) ^ (k - d.exponent) ≤ d.coefficient := by
    rw [abs_value, zpow_sub₀ (by norm_num), div_le_iff₀ h_pos]
  rw [h_scale]
  unfold leading digits
  have h_length : 0 < (Nat.toDigits 10 d.coefficient).length := Nat.length_toDigits_pos
  rcases lt_or_ge (k - d.exponent) 0 with h_neg | h_nonneg
  · refine iff_of_true ?_ (by omega)
    calc (10 : ℚ) ^ (k - d.exponent)
        ≤ 1 := zpow_le_one_of_nonpos₀ (by norm_num) h_neg.le
      _ ≤ d.coefficient := by exact_mod_cast Nat.pos_of_ne_zero hd
  · obtain ⟨j, hj⟩ := Int.eq_ofNat_of_zero_le h_nonneg
    have h_nat : (10 : ℚ) ^ (k - d.exponent) ≤ d.coefficient ↔ 10 ^ j ≤ d.coefficient := by
      rw [hj, zpow_natCast]
      norm_cast
    rw [h_nat, pow_le_iff_lt_length hd]
    omega

/-- **A number and an exponent** make the decimal that denotes their product. -/
theorem value_ofScaled (negative : Bool) (n : Nat) (e : Int) :
    (ofScaled negative n e).value = (if negative then -1 else 1) * (n * 10 ^ e) := by
  obtain ⟨k, h_number, h_exp⟩ := strip_shift n e
  show (if negative then -1 else 1) * (((strip n e).1 : ℚ) * 10 ^ (strip n e).2) = _
  congr 1
  by_cases hn : n = 0
  · subst hn
    have h_zero : (strip 0 e).1 = 0 := by
      unfold strip
      rfl
    rw [h_zero]
    simp
  · -- what the coefficient has lost, the exponent has gained
    calc ((strip n e).1 : ℚ) * 10 ^ (strip n e).2
        = (strip n e).1 * 10 ^ k * 10 ^ e := by
          rw [h_exp hn, zpow_add₀ (by norm_num), zpow_natCast]
          ring
      _ = n * 10 ^ e := by
          congr 1
          exact_mod_cast h_number

end Decimal

end SchemaNaming
