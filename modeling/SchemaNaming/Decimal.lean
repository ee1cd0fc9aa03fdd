/-!
# Decimal numbers and their texts

A floating-point number is known here by its shortest decimal text: the fewest digits that read
back as the same number. That text is a sign, a coefficient and a power of ten, and everything
the library does with such a number — writing it, comparing it with an integer — starts there.

* `Decimal` — sign, coefficient and exponent, with no trailing zero in the coefficient, so that
  two decimals are equal exactly when they denote the same signed value;
* `Decimal.render` — the text of a decimal in a given `Style`, which fixes where positional
  notation ends and whether a whole number keeps its point;
* `Decimal.read?` — reads a decimal literal, in either notation;
* `Decimal.toInt?` — the integer that the floating-point number with this shortest text is equal
  to, if it is one;
* `Floating` — decimals together with the infinities and the undefined numbers.
-/

namespace SchemaNaming

/-- A signed decimal `±coefficient · 10 ^ exponent`. The coefficient has no trailing zero, and
zero has exponent `0`. -/
structure Decimal where
  negative : Bool
  coefficient : Nat
  exponent : Int
  canonical : coefficient % 10 ≠ 0 ∨ coefficient = 0 ∧ exponent = 0
  deriving DecidableEq, Repr

namespace Decimal

/-- `n · 10 ^ e` with the trailing zeros of `n` moved into the exponent. -/
def strip (n : Nat) (e : Int) : Nat × Int :=
  if n = 0 then (0, 0) else if n % 10 = 0 then strip (n / 10) (e + 1) else (n, e)
termination_by n
decreasing_by omega

theorem strip_canonical (n : Nat) (e : Int) :
    (strip n e).1 % 10 ≠ 0 ∨ (strip n e).1 = 0 ∧ (strip n e).2 = 0 := by
  fun_induction strip n e with
  | case1 => simp
  | case2 _ _ _ _ ih => exact ih
  | case3 n e _ h => exact Or.inl h

/-- The decimal `±n · 10 ^ e`. -/
def ofScaled (negative : Bool) (n : Nat) (e : Int) : Decimal :=
  ⟨negative, (strip n e).1, (strip n e).2, strip_canonical n e⟩

instance : Inhabited Decimal := ⟨ofScaled false 0 0⟩

/-- The digits of the coefficient, the highest first. -/
def digits (d : Decimal) : List Char := Nat.toDigits 10 d.coefficient

/-- The exponent of the first digit. -/
def leading (d : Decimal) : Int := d.exponent + d.digits.length - 1

/-! ### Writing -/

/-- How a number is written: its first digit's exponent decides between positional notation, from
`lowest` up to but not including `scientific`, and notation with an exponent. With `keepPoint` a
whole number in positional notation ends in `.0`. -/
structure Style where
  lowest : Int
  scientific : Int
  keepPoint : Bool
  undefined : String
  positiveInfinity : String
  negativeInfinity : String

/-- A value that stands alone is written like `2`, `1.5`, `1e+06`. -/
def Style.standalone : Style := ⟨-4, 6, false, "NaN", "+Inf", "-Inf"⟩

/-- A value inside a list or a mapping is written like `2.0`, `1.5`, `1000000.0`, `1e+16`. -/
def Style.nested : Style := ⟨-4, 16, true, "nan", "inf", "-inf"⟩

/-- Positional notation of the digits `ds` scaled by `10 ^ e`. -/
def positional (keepPoint : Bool) (ds : List Char) (e : Int) : List Char :=
  match e with
  | .ofNat k => ds ++ List.replicate k '0' ++ (if keepPoint then ['.', '0'] else [])
  | .negSucc k =>
    if k + 1 < ds.length then ds.take (ds.length - (k + 1)) ++ '.' :: ds.drop (ds.length - (k + 1))
    else '0' :: '.' :: List.replicate (k + 1 - ds.length) '0' ++ ds

/-- An exponent with its sign and at least two digits. -/
def exponentText (e : Int) : List Char :=
  let ds := Nat.toDigits 10 e.natAbs
  (if e < 0 then '-' else '+') :: (if ds.length < 2 then '0' :: ds else ds)

/-- One digit, the rest behind a point, and the exponent `e` of that digit. -/
def scientific (ds : List Char) (e : Int) : List Char :=
  let mantissa := match ds with
    | d :: c :: cs => d :: '.' :: c :: cs
    | short => short
  mantissa ++ 'e' :: exponentText e

def render (style : Style) (d : Decimal) : List Char :=
  let body :=
    if style.lowest ≤ d.leading ∧ d.leading < style.scientific then
      positional style.keepPoint d.digits d.exponent
    else scientific d.digits d.leading
  if d.negative then '-' :: body else body

/-! ### Reading -/

/-- The number that the decimal digits `ds` denote. -/
def ofDigits (ds : List Char) : Nat := ds.foldl (fun n c => 10 * n + (c.toNat - 48)) 0

/-- Reads what follows the digits: nothing, or `e`, an optional sign and at least one digit. -/
def readExponent? (cs : List Char) : Option Int :=
  match cs with
  | [] => some 0
  | 'e' :: '-' :: ds => if ds ≠ [] ∧ ds.all Char.isDigit then some (-(ofDigits ds : Int)) else none
  | 'e' :: '+' :: ds => if ds ≠ [] ∧ ds.all Char.isDigit then some (ofDigits ds) else none
  | 'e' :: ds => if ds ≠ [] ∧ ds.all Char.isDigit then some (ofDigits ds) else none
  | _ => none

/-- Reads a literal without sign: digits, optionally a point and digits, optionally an exponent. -/
def readUnsigned? (negative : Bool) (cs : List Char) : Option Decimal :=
  let whole := cs.takeWhile Char.isDigit
  let rest := cs.dropWhile Char.isDigit
  if whole = [] then none else
  match rest with
  | '.' :: more =>
    let fraction := more.takeWhile Char.isDigit
    if fraction = [] then none else
    (readExponent? (more.dropWhile Char.isDigit)).map fun e =>
      ofScaled negative (ofDigits (whole ++ fraction)) (e - fraction.length)
  | more => (readExponent? more).map fun e => ofScaled negative (ofDigits whole) e

def read? (cs : List Char) : Option Decimal :=
  match cs with
  | '-' :: more => readUnsigned? true more
  | more => readUnsigned? false more

/-! ### Comparison with integers -/

/-- `n` rounded to 53 binary digits, a half going to the even neighbour. A smaller `n` stays. -/
def roundBinary (n : Nat) : Nat :=
  let shift := n.log2 - 52
  let unit := Nat.pow 2 shift
  let q := n / unit
  let r := n % unit
  if 2 * r < unit ∨ (2 * r = unit ∧ q % 2 = 0) then q * unit else (q + 1) * unit

/-- The integer equal to the double-precision number whose shortest text is `d`. Where the
text has a fraction there is none; beyond 53 binary digits the number is the nearest double, not
the text. -/
def toInt? (d : Decimal) : Option Int :=
  match d.exponent with
  | .ofNat e =>
    let n := roundBinary (d.coefficient * Nat.pow 10 e)
    some (if d.negative then -(n : Int) else n)
  | .negSucc _ => none

end Decimal

/-- A floating-point number: a finite one is known by its shortest decimal text. An undefined one
is told apart from others by its mark. -/
inductive Floating where
  | finite (d : Decimal)
  | infinite (negative : Bool)
  | undefined (mark : Nat)
  deriving DecidableEq, Repr, Inhabited

namespace Floating

def render (style : Decimal.Style) : Floating → String
  | finite d => String.ofList (d.render style)
  | infinite false => style.positiveInfinity
  | infinite true => style.negativeInfinity
  | undefined _ => style.undefined

/-- Reads the text of a number as it is written inside a list. An undefined number gets the mark. -/
def read? (s : String) (mark : Nat := 0) : Option Floating :=
  if s = Decimal.Style.nested.positiveInfinity then some (infinite false)
  else if s = Decimal.Style.nested.negativeInfinity then some (infinite true)
  else if s = Decimal.Style.nested.undefined then some (undefined mark)
  else (Decimal.read? s.toList).map finite

/-- Only the two zeros are zero. -/
def isZero : Floating → Bool
  | finite d => d.coefficient == 0
  | _ => false

/-- The numbers are equal, as the two zeros are, or they are one and the same. -/
def same : Floating → Floating → Bool
  | finite a, finite b => a == b || (a.coefficient == 0 && b.coefficient == 0)
  | infinite a, infinite b => a == b
  | undefined a, undefined b => a == b
  | _, _ => false

/-- The integer that the number is equal to. -/
def toInt? : Floating → Option Int
  | finite d => d.toInt?
  | _ => none

end Floating

end SchemaNaming
