import SchemaNaming.Config.Data
import SchemaNaming.Text.Digit
import SchemaNaming.Text.Lower

/-!
# Numbers in a YAML text

A scalar that is said to be a number must be one. Its form may be richer than that of the plain
scalars which are numbers by themselves: digits of any script, white space around, underscores
between.

* `checkInteger` — the scalar is an integer: binary, octal, decimal, hexadecimal or in base 60;
* `checkFloating` — the scalar is a floating-point number, in decimal or in base 60.
-/

namespace SchemaNaming.Config.Yaml

/-- The number that a digit of bases up to 16 stands for. -/
def digitValue? (c : Char) : Option Nat :=
  let n := c.toNat
  if c.isDigit then some (n - 48)
  else if 97 ≤ n ∧ n ≤ 102 then some (n - 87)
  else if 65 ≤ n ∧ n ≤ 70 then some (n - 55)
  else none

def isDigitIn (base : Nat) (c : Char) : Bool := (digitValue? c).any (· < base)

/-- The number without the mark of its base. -/
def dropBaseMark (base : Nat) (cs : List Char) : List Char :=
  match cs with
  | '0' :: m :: more =>
    if (base = 16 ∧ (m = 'x' ∨ m = 'X')) ∨ (base = 8 ∧ (m = 'o' ∨ m = 'O')) ∨
        (base = 2 ∧ (m = 'b' ∨ m = 'B')) then more
    else cs
  | _ => cs

def dropSign (cs : List Char) : List Char :=
  match cs with
  | c :: more => if c = '-' || c = '+' then more else cs
  | [] => []

/-- The text is an integer in the base. -/
def checkInBase (base : Nat) (ps : List Text.CodePoint) : Except ReadFault Unit :=
  let number := dropBaseMark base
    (dropSign ((Text.plainNumeral (ps.map Text.CodePoint.shown)).dropWhile Text.isNumeralSpace))
  let ds := number.takeWhile (isDigitIn base)
  if base = 10 ∧ Integer.digitLimit < ds.length then .error (.tooManyDigits ds.length)
  else if ds ≠ [] ∧ (number.drop ds.length).all Text.isNumeralSpace then .ok ()
  else .error (.badInteger base ps)

/-- The parts of a text between colons. -/
def places (ps : List Text.CodePoint) : List (List Text.CodePoint) := ps.splitOn (.char ':')

/-- The text without underscores. -/
def compact (ps : List Text.CodePoint) : List Text.CodePoint := ps.filter (· ≠ .char '_')

/-- The text without its sign; a text of no characters is no number. -/
def unsigned (ps : List Text.CodePoint) : Except ReadFault (List Text.CodePoint) :=
  match ps with
  | [] => .error .emptyNumber
  | .char '-' :: more => .ok more
  | .char '+' :: more => .ok more
  | _ => .ok ps

def checkInteger (ps : List Text.CodePoint) : Except ReadFault Unit := do
  let number ← unsigned (compact ps)
  match number with
  | [.char '0'] => return ()
  | .char '0' :: .char 'b' :: more => checkInBase 2 more
  | .char '0' :: .char 'x' :: more => checkInBase 16 more
  | .char '0' :: _ => checkInBase 8 number
  | [] => throw .emptyNumber
  | _ =>
    if number.contains (.char ':') then (places number).forM (checkInBase 10)
    else checkInBase 10 number

/-- Digits, with a point among them or without one, at least one of them, and an exponent if there
is an `e`. -/
def isDecimal (cs : List Char) : Bool :=
  let whole := cs.takeWhile Char.isDigit
  let rest := cs.dropWhile Char.isDigit
  let (fraction, rest) := match rest with
    | '.' :: more => (more.takeWhile Char.isDigit, more.dropWhile Char.isDigit)
    | _ => ([], rest)
  let exponent := match rest with
    | [] => true
    | 'e' :: more => dropSign more ≠ [] && (dropSign more).all Char.isDigit
    | _ => false
  (whole ≠ [] || fraction ≠ []) && exponent

/-- The text is a floating-point number in decimal, or a word for one that has no digits. -/
def checkDecimal (ps : List Text.CodePoint) : Except ReadFault Unit :=
  let number := dropSign (Text.trimNumeral (Text.plainNumeral (ps.map Text.CodePoint.shown)))
  if isDecimal number || ["inf", "infinity", "nan"].contains (String.ofList number) then .ok ()
  else .error (.badFloat ps)

/-- The most places for which a power of 60 is a floating-point number. -/
def placeLimit : Nat := 174

def checkFloating (ps : List Text.CodePoint) : Except ReadFault Unit := do
  let number ← unsigned (Text.lowerPoints (compact ps))
  if [".inf", ".nan"].contains (String.ofList (number.map Text.CodePoint.shown)) then return ()
  if number.contains (.char ':') then
    (places number).forM checkDecimal
    if placeLimit < (places number).length then throw .tooManyPlaces
  else checkDecimal number

end SchemaNaming.Config.Yaml
