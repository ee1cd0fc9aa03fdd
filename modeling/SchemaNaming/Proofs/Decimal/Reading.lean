import SchemaNaming.Proofs.Decimal.Digits

/-!
# Texts of decimals are read back

A decimal literal has digits in front of the point and, unless there is no point, digits behind it;
an exponent may follow. Whatever the style, the text of a decimal consists of such parts, in which
the decimal's own digits stand between zeros (`Decimal.Shows`). Each way to lay the digits out is
one lemma: without a point, with a point at the end, inside of the digits, in front of them, or
behind the first one.

A literal is read part by part (`Decimal.readUnsigned?_pointed`), and zeros around the digits only
move the exponent. So the text is read as the decimal that it was written for
(`Decimal.read?_render`).
-/

namespace SchemaNaming

namespace Decimal

/-! ### Parts of a literal -/

/-- The digits in front of the point and those behind it. Where none are behind it there is no
point. -/
def pointed (whole fraction : List Char) : List Char :=
  if fraction = [] then whole else whole ++ '.' :: fraction

/-- Digits without a superfluous zero in front. -/
structure IsWhole (ds : List Char) : Prop where
  ne : ds ≠ []
  digits : AreDigits ds
  front : ds.head? = some '0' → ds = ['0']

/-- Digits without a superfluous zero at the end. There need not be any. -/
structure IsFraction (ds : List Char) : Prop where
  digits : AreDigits ds
  back : ds.getLast? ≠ some '0'

/-- At least two digits, and no zero in front of more than two. -/
structure IsExponent (ds : List Char) : Prop where
  two_le : 2 ≤ ds.length
  digits : AreDigits ds
  front : 2 < ds.length → ds.head? ≠ some '0'

/-- With the exponent `e`, the digits around the point denote the decimal, its sign aside. -/
structure Shows (d : Decimal) (whole fraction : List Char) (e : Int) : Prop where
  isWhole : IsWhole whole
  areDigits : AreDigits fraction
  between : ∃ i k : Nat,
    whole ++ fraction = List.replicate i '0' ++ d.digits ++ List.replicate k '0'
      ∧ e - fraction.length + k = d.exponent

theorem mem_pointed {c : Char} {whole fraction : List Char} (hc : c ∈ pointed whole fraction) :
    c ∈ whole ∨ c = '.' ∨ c ∈ fraction := by
  unfold pointed at hc
  split at hc
  · exact .inl hc
  · rcases List.mem_append.mp hc with hc | hc
    · exact .inl hc
    · exact .inr (List.mem_cons.mp hc)

/-! ### Reading -/

/-- Digits are read up to whatever else comes. -/
theorem span_digits {ds tail : List Char} (hd : AreDigits ds)
    (h_tail : ∀ c ∈ tail.head?, c.isDigit = false) :
    (ds ++ tail).takeWhile Char.isDigit = ds ∧ (ds ++ tail).dropWhile Char.isDigit = tail := by
  rw [List.takeWhile_append_of_pos hd, List.dropWhile_append_of_pos hd]
  cases tail with
  | nil => exact ⟨List.append_nil ds, rfl⟩
  | cons c cs =>
    have hc : ¬ c.isDigit = true := Bool.eq_false_iff.mp (h_tail c rfl)
    rw [List.takeWhile_cons_of_neg hc, List.dropWhile_cons_of_neg hc, List.append_nil]
    exact ⟨rfl, rfl⟩

/-- **A literal is read** part by part. -/
theorem readUnsigned?_pointed (negative : Bool) {whole fraction tail : List Char}
    (hw : IsWhole whole) (hf : AreDigits fraction)
    (h_tail : ∀ c ∈ tail.head?, c.isDigit = false ∧ c ≠ '.') :
    readUnsigned? negative (pointed whole fraction ++ tail)
      = (readExponent? tail).map fun e =>
          ofScaled negative (ofDigits (whole ++ fraction)) (e - fraction.length) := by
  have h_stop : ∀ c ∈ tail.head?, c.isDigit = false := fun c hc => (h_tail c hc).1
  unfold readUnsigned? pointed
  by_cases h_none : fraction = []
  · subst h_none
    rw [if_pos rfl]
    obtain ⟨h_take, h_drop⟩ := span_digits hw.digits h_stop
    simp only [h_take, h_drop, if_neg hw.ne]
    -- what follows is no point
    split
    · exact absurd rfl (h_tail '.' rfl).2
    · simp
  · rw [if_neg h_none, List.append_assoc, List.cons_append]
    have h_point : ∀ c ∈ ('.' :: (fraction ++ tail)).head?, c.isDigit = false := by
      intro c hc
      obtain rfl := Option.some.inj hc
      rfl
    obtain ⟨h_take, h_drop⟩ := span_digits hw.digits h_point
    obtain ⟨h_take', h_drop'⟩ := span_digits hf h_stop
    simp only [h_take, h_drop, h_take', h_drop', if_neg hw.ne, if_neg h_none]

/-- Parts that show a decimal are read as that decimal. -/
theorem Shows.read {d : Decimal} {whole fraction tail : List Char} {e : Int}
    (h : Shows d whole fraction e) (h_tail : ∀ c ∈ tail.head?, c.isDigit = false ∧ c ≠ '.')
    (h_exp : readExponent? tail = some e) :
    readUnsigned? d.negative (pointed whole fraction ++ tail) = some d := by
  obtain ⟨i, k, h_digits, h_scale⟩ := h.between
  have h_value : ofDigits (whole ++ fraction) = d.coefficient * 10 ^ k := by
    rw [h_digits, ofDigits_between_zeros]
    congr 1
    exact ofDigits_toDigits d.coefficient
  rw [readUnsigned?_pointed d.negative h.isWhole h.areDigits h_tail, h_exp, Option.map_some,
    h_value, ofScaled_mul_pow, h_scale, ofScaled_self]

/-! ### Exponents -/

/-- An exponent is written with its sign and its digits. -/
theorem exponentText_eq (e : Int) :
    ∃ es, exponentText e = (if e < 0 then '-' else '+') :: es ∧ IsExponent es
      ∧ ofDigits es = e.natAbs := by
  have h_length : 0 < (Nat.toDigits 10 e.natAbs).length := Nat.length_toDigits_pos
  refine ⟨_, rfl, ?_⟩
  split
  · -- a single digit gets a zero in front
    next h_short =>
    refine ⟨⟨?_, ?_, ?_⟩, ?_⟩
    · rw [List.length_cons]
      omega
    · exact (areDigits_zeros 1).append (areDigits_toDigits e.natAbs)
    · rw [List.length_cons]
      omega
    · calc ofDigits ('0' :: Nat.toDigits 10 e.natAbs)
          = ofDigits (Nat.toDigits 10 e.natAbs) := rfl
        _ = e.natAbs := ofDigits_toDigits e.natAbs
  · next h_long =>
    refine ⟨⟨by omega, areDigits_toDigits e.natAbs, fun _ => ?_⟩, ofDigits_toDigits e.natAbs⟩
    apply head_toDigits
    intro h_zero
    rw [h_zero] at h_long
    exact h_long (by decide)

theorem readExponent?_exponentText (e : Int) : readExponent? ('e' :: exponentText e) = some e := by
  obtain ⟨es, h_text, h_exp, h_digits⟩ := exponentText_eq e
  have h_ne : es ≠ [] := by
    intro h_nil
    have h_two := h_exp.two_le
    rw [h_nil] at h_two
    cases h_two
  have h_read : es ≠ [] ∧ es.all Char.isDigit = true := ⟨h_ne, List.all_eq_true.mpr h_exp.digits⟩
  rw [h_text]
  by_cases h_neg : e < 0
  · rw [if_pos h_neg, readExponent?, if_pos h_read, h_digits]
    congr 1
    omega
  · rw [if_neg h_neg, readExponent?, if_pos h_read, h_digits]
    congr 1
    omega

/-! ### The digits of a decimal -/

section Digits

variable (d : Decimal)

theorem areDigits_digits : AreDigits d.digits := areDigits_toDigits d.coefficient

theorem digits_ne_nil : d.digits ≠ [] := Nat.toDigits_ne_nil

variable {d}

/-- Only zero starts with a zero, -/
theorem zero_of_head_digits (h_zero : d.digits.head? = some '0') :
    d.digits = ['0'] ∧ d.exponent = 0 := by
  have h_coefficient : d.coefficient = 0 := by
    by_contra h_ne
    exact head_toDigits h_ne h_zero
  constructor
  · unfold digits
    rw [h_coefficient]
    rfl
  · exact (d.canonical.resolve_left (by rw [h_coefficient]; decide)).2

/-- and a number with a fraction does not end in one. -/
theorem getLast_digits (h_neg : d.exponent < 0) : d.digits.getLast? ≠ some '0' := by
  apply getLast_toDigits
  exact d.canonical.resolve_right fun h => by omega

theorem isWhole_digits_zeros {k : Nat} (hk : d.exponent = k) :
    IsWhole (d.digits ++ List.replicate k '0') where
  ne := List.append_ne_nil_of_left_ne_nil d.digits_ne_nil _
  digits := d.areDigits_digits.append (areDigits_zeros k)
  front h_zero := by
    rw [List.head?_append_of_ne_nil _ d.digits_ne_nil] at h_zero
    -- zero has no zeros behind its digit
    obtain ⟨h_digits, h_exp⟩ := zero_of_head_digits h_zero
    obtain rfl : k = 0 := by omega
    rw [h_digits]
    rfl

theorem isWhole_take (h_neg : d.exponent < 0) {j : Nat} (hj : j ≠ 0) :
    IsWhole (d.digits.take j) where
  ne h_nil := (List.take_eq_nil_iff.mp h_nil).elim hj d.digits_ne_nil
  digits := fun c hc => d.areDigits_digits c (List.mem_of_mem_take hc)
  front h_zero := by
    rw [List.head?_take, if_neg hj] at h_zero
    obtain ⟨-, h_exp⟩ := zero_of_head_digits h_zero
    omega

end Digits

/-! ### Layouts -/

section Layouts

variable {d : Decimal} {k : Nat}

/-- A whole number, without a point -/
theorem shows_whole (h_exp : d.exponent = k) :
    Shows d (d.digits ++ List.replicate k '0') [] 0 := by
  refine ⟨isWhole_digits_zeros h_exp, nofun, 0, k, ?_, ?_⟩
  · rw [List.append_nil]
    rfl
  · rw [h_exp]
    simp

/-- and with one. -/
theorem shows_whole_point (h_exp : d.exponent = k) :
    Shows d (d.digits ++ List.replicate k '0') ['0'] 0 := by
  refine ⟨isWhole_digits_zeros h_exp, areDigits_zeros 1, 0, k + 1, ?_, ?_⟩
  · rw [List.replicate_succ', ← List.append_assoc]
    rfl
  · rw [h_exp]
    simp

/-- A point inside of the digits, -/
theorem shows_inside (h_exp : d.exponent = -(k + 1 : Nat)) (h_inside : k + 1 < d.digits.length) :
    Shows d (d.digits.take (d.digits.length - (k + 1))) (d.digits.drop (d.digits.length - (k + 1)))
      0 := by
  refine ⟨isWhole_take (by omega) (by omega), fun c hc => ?_, 0, 0, ?_, ?_⟩
  · exact d.areDigits_digits c (List.mem_of_mem_drop hc)
  · rw [List.take_append_drop]
    exact (List.append_nil d.digits).symm
  · rw [List.length_drop, h_exp]
    omega

/-- and one in front of them all, behind a zero. -/
theorem shows_before (h_exp : d.exponent = -(k + 1 : Nat)) (h_before : ¬ k + 1 < d.digits.length) :
    Shows d ['0'] (List.replicate (k + 1 - d.digits.length) '0' ++ d.digits) 0 := by
  refine ⟨⟨List.cons_ne_nil _ _, areDigits_zeros 1, fun _ => rfl⟩,
    (areDigits_zeros _).append d.areDigits_digits, k + 1 - d.digits.length + 1, 0, ?_, ?_⟩
  · rw [List.replicate_succ]
    exact (List.append_nil _).symm
  · rw [List.length_append, List.length_replicate, h_exp]
    omega

/-- A point behind the first digit, with the exponent of that digit. -/
theorem shows_leading {c : Char} {cs : List Char} (h_digits : d.digits = c :: cs) :
    Shows d [c] cs d.leading := by
  have h_all : AreDigits (c :: cs) := h_digits ▸ d.areDigits_digits
  refine ⟨⟨List.cons_ne_nil _ _, fun x hx => ?_, fun h_zero => ?_⟩, fun x hx => ?_, 0, 0, ?_, ?_⟩
  · exact h_all x (List.mem_cons.mpr (.inl (List.mem_singleton.mp hx)))
  · rw [Option.some.inj h_zero]
  · exact h_all x (List.mem_cons_of_mem c hx)
  · rw [h_digits]
    exact (List.append_nil _).symm
  · unfold leading
    rw [h_digits, List.length_cons]
    omega

end Layouts

/-- **Positional notation** shows the decimal. A superfluous zero ends it only where a whole number
keeps its point. -/
theorem positional_shows (keepPoint : Bool) (d : Decimal) :
    ∃ whole fraction, positional keepPoint d.digits d.exponent = pointed whole fraction
      ∧ Shows d whole fraction 0 ∧ (keepPoint = false → IsFraction fraction) := by
  cases h_exp : d.exponent with
  | ofNat k =>
    cases keepPoint with
    | false => exact ⟨_, _, List.append_nil _, shows_whole h_exp, fun _ => ⟨nofun, nofun⟩⟩
    | true => exact ⟨_, _, rfl, shows_whole_point h_exp, nofun⟩
  | negSucc k =>
    -- the digits behind the point end like those of the decimal
    have h_last : d.digits.getLast? ≠ some '0' := getLast_digits (by omega)
    unfold positional
    dsimp only
    split
    · next h_inside =>
      have h_shows := shows_inside h_exp h_inside
      have h_drop : d.digits.drop (d.digits.length - (k + 1)) ≠ [] := by
        rw [Ne, List.drop_eq_nil_iff]
        omega
      refine ⟨_, _, (if_neg h_drop).symm, h_shows, fun _ => ⟨h_shows.areDigits, ?_⟩⟩
      rwa [List.getLast?_drop, if_neg (by omega)]
    · next h_before =>
      have h_shows := shows_before h_exp h_before
      refine ⟨_, _, (if_neg ?_).symm, h_shows, fun _ => ⟨h_shows.areDigits, ?_⟩⟩
      · exact List.append_ne_nil_of_right_ne_nil _ d.digits_ne_nil
      · rwa [List.getLast?_append_of_ne_nil _ d.digits_ne_nil]

/-- **Notation with an exponent** shows the decimal. -/
theorem scientific_shows (d : Decimal) :
    ∃ c cs, scientific d.digits d.leading = pointed [c] cs ++ 'e' :: exponentText d.leading
      ∧ d.digits = c :: cs ∧ Shows d [c] cs d.leading := by
  cases h_digits : d.digits with
  | nil => exact absurd h_digits d.digits_ne_nil
  | cons c cs =>
    refine ⟨c, cs, ?_, rfl, shows_leading h_digits⟩
    cases cs <;> rfl

/-! ### Whole texts -/

/-- The text of the decimal without its sign. -/
def magnitude (style : Style) (d : Decimal) : List Char :=
  if style.lowest ≤ d.leading ∧ d.leading < style.scientific then
    positional style.keepPoint d.digits d.exponent
  else scientific d.digits d.leading

theorem render_eq (style : Style) (d : Decimal) :
    d.render style = if d.negative then '-' :: d.magnitude style else d.magnitude style := rfl

/-- In either notation the text shows the decimal, and what follows the digits is its exponent. -/
theorem magnitude_shows (style : Style) (d : Decimal) :
    ∃ whole fraction tail e, d.magnitude style = pointed whole fraction ++ tail
      ∧ Shows d whole fraction e ∧ (∀ c ∈ tail.head?, c.isDigit = false ∧ c ≠ '.')
      ∧ readExponent? tail = some e := by
  unfold magnitude
  split
  · obtain ⟨whole, fraction, h_text, h_shows, -⟩ := positional_shows style.keepPoint d
    exact ⟨whole, fraction, [], 0, by rw [h_text, List.append_nil], h_shows, nofun, rfl⟩
  · obtain ⟨c, cs, h_text, -, h_shows⟩ := scientific_shows d
    refine ⟨[c], cs, _, _, h_text, h_shows, fun x hx => ?_, readExponent?_exponentText d.leading⟩
    obtain rfl := Option.some.inj hx
    decide

/-- A text without its sign starts with a digit, and so with no sign. -/
theorem exists_magnitude_eq_cons (style : Style) (d : Decimal) :
    ∃ c cs, d.magnitude style = c :: cs ∧ c ≠ '-' := by
  obtain ⟨whole, fraction, tail, e, h_text, h_shows, -, -⟩ := magnitude_shows style d
  obtain ⟨c, cs, rfl⟩ := List.exists_cons_of_ne_nil h_shows.isWhole.ne
  have hc : c ≠ '-' := by
    rintro rfl
    exact absurd (h_shows.isWhole.digits '-' List.mem_cons_self) (by decide)
  rw [h_text]
  unfold pointed
  split
  · exact ⟨c, _, rfl, hc⟩
  · exact ⟨c, _, rfl, hc⟩

/-- **What is written is read back**, whatever the style. -/
theorem read?_render (style : Style) (d : Decimal) : read? (d.render style) = some d := by
  have h_read : readUnsigned? d.negative (d.magnitude style) = some d := by
    obtain ⟨whole, fraction, tail, e, h_text, h_shows, h_tail, h_exp⟩ := magnitude_shows style d
    rw [h_text]
    exact h_shows.read h_tail h_exp
  rw [render_eq]
  cases h_sign : d.negative with
  | true =>
    rw [h_sign] at h_read
    exact h_read
  | false =>
    obtain ⟨c, cs, h_text, hc⟩ := exists_magnitude_eq_cons style d
    rw [h_sign, h_text] at h_read
    rw [if_neg Bool.false_ne_true, h_text]
    unfold read?
    split
    · next h_minus => exact absurd (List.cons.inj h_minus).1 hc
    · exact h_read

end Decimal

end SchemaNaming
