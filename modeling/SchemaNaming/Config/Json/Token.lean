import SchemaNaming.Config.Data

/-!
# JSON tokens

The tokens of a JSON text. Beyond the standard's grammar, `NaN`, `Infinity` and `-Infinity` are
numbers, and an escape may leave a lone surrogate behind, which makes the text ill-formed but no
error.

* `Token` — the tokens; what is no token ends the list as `Token.junk`;
* `Units.read` — the code units of a text up to its closing quote;
* `Units.join` — the characters that they spell, surrogates in pairs;
* `Token.list` — the tokens of a text.
-/

namespace SchemaNaming.Config.Json

inductive Token where
  | openBrace
  | closeBrace
  | openBracket
  | closeBracket
  | comma
  | colon
  /-- A text, unless it is ill-formed. -/
  | text (s : Option String)
  | null
  | bool (b : Bool)
  | number
  /-- An integer with more digits than are read. -/
  | overlong (digits : Nat)
  /-- Anything else. -/
  | junk
  deriving DecidableEq, Repr

def hexValue? (c : Char) : Option Nat :=
  if c.isDigit then some (c.toNat - 48)
  else if 'a' ≤ c ∧ c ≤ 'f' then some (c.toNat - 87)
  else if 'A' ≤ c ∧ c ≤ 'F' then some (c.toNat - 55)
  else none

/-- The number that four hexadecimal digits stand for. -/
def hexValues? (a b c d : Char) : Option Nat := do
  return ((← hexValue? a) * 16 + (← hexValue? b)) * 256 + (← hexValue? c) * 16 + (← hexValue? d)

namespace Units

/-- The code unit that a one-letter escape stands for. -/
def escape? (c : Char) : Option Nat :=
  if c = '\x22' || c = '\\' || c = '/' then some c.toNat
  else if c = 'b' then some 8
  else if c = 'f' then some 12
  else if c = 'n' then some 10
  else if c = 'r' then some 13
  else if c = 't' then some 9
  else none

/-- The code units of a text up to its closing quote, and what follows the quote. Control
characters may only be escaped. -/
def read : List Char → Option (List Nat × List Char)
  | '\x22' :: cs => some ([], cs)
  | '\\' :: 'u' :: a :: b :: c :: d :: cs =>
    match hexValues? a b c d, read cs with
    | some u, some (us, rest) => some (u :: us, rest)
    | _, _ => none
  | '\\' :: c :: cs =>
    match escape? c, read cs with
    | some u, some (us, rest) => some (u :: us, rest)
    | _, _ => none
  | c :: cs =>
    if c.toNat < 32 || c = '\\' then none
    else match read cs with
      | some (us, rest) => some (c.toNat :: us, rest)
      | none => none
  | [] => none

/-- The unit is the first half of a pair. -/
def isHigh (u : Nat) : Bool := 0xD800 ≤ u && u ≤ 0xDBFF

/-- The unit is the second half of a pair. -/
def isLow (u : Nat) : Bool := 0xDC00 ≤ u && u ≤ 0xDFFF

/-- The characters that the units spell, unless a half of a pair stands alone. -/
def join : List Nat → Option (List Char)
  | [] => some []
  | [u] => if isHigh u || isLow u then none else some [Char.ofNat u]
  | u :: v :: us =>
    if isHigh u && isLow v then
      (join us).map (Char.ofNat (0x10000 + (u - 0xD800) * 0x400 + (v - 0xDC00)) :: ·)
    else if isHigh u || isLow u then none
    else (join (v :: us)).map (Char.ofNat u :: ·)

end Units

/-- Drops `word` from the front of `cs`. -/
def afterWord? (word : String) (cs : List Char) : Option (List Char) :=
  if word.toList.isPrefixOf cs then some (cs.drop word.toList.length) else none

/-- The digits of the fraction, if there is one, and what follows. -/
def afterFraction (cs : List Char) : Bool × List Char :=
  match cs with
  | '.' :: d :: more => if d.isDigit then (true, more.dropWhile Char.isDigit) else (false, cs)
  | _ => (false, cs)

/-- What follows the exponent, if there is one. -/
def afterExponent (cs : List Char) : Bool × List Char :=
  match cs with
  | e :: more =>
    if e = 'e' || e = 'E' then
      let ds := match more with
        | s :: ds => if s = '-' || s = '+' then ds else more
        | [] => []
      if ds.head?.any Char.isDigit then (true, ds.dropWhile Char.isDigit) else (false, cs)
    else (false, cs)
  | [] => (false, cs)

/-- The number at the front of `cs`, which starts with a digit. Its whole part is a single zero or
starts with another digit. -/
def scanDigits (cs : List Char) : Token × List Char :=
  let whole := match cs with
    | '0' :: _ => ['0']
    | _ => cs.takeWhile Char.isDigit
  let (fraction, rest) := afterFraction (cs.drop whole.length)
  let (exponent, rest) := afterExponent rest
  if !fraction && !exponent && Integer.digitLimit < whole.length then
    (.overlong whole.length, rest)
  else (.number, rest)

/-- The number at the front of `cs`. -/
def scanNumber? (cs : List Char) : Option (Token × List Char) :=
  match cs with
  | '-' :: more =>
    if more.head?.any Char.isDigit then some (scanDigits more)
    else (afterWord? "Infinity" more).map (.number, ·)
  | _ =>
    if cs.head?.any Char.isDigit then some (scanDigits cs)
    else ((afterWord? "NaN" cs).or (afterWord? "Infinity" cs)).map (.number, ·)

/-- The word or number at the front of `cs`. -/
def scanWord? (cs : List Char) : Option (Token × List Char) :=
  ((afterWord? "null" cs).map (Token.null, ·)).or <|
    ((afterWord? "true" cs).map (Token.bool true, ·)).or <|
      ((afterWord? "false" cs).map (Token.bool false, ·)).or <| scanNumber? cs

def punctuation? (c : Char) : Option Token :=
  if c = '\x7b' then some .openBrace
  else if c = '\x7d' then some .closeBrace
  else if c = '[' then some .openBracket
  else if c = ']' then some .closeBracket
  else if c = ',' then some .comma
  else if c = ':' then some .colon
  else none

/-- The character may stand between tokens. -/
def isSpace (c : Char) : Bool := c = ' ' || c = '\t' || c = '\n' || c = '\r'

/-- The tokens of a text. Each takes at least one character, so as many steps as there are
characters are enough. -/
def tokensWithin : (steps : Nat) → List Char → List Token
  | _, [] => []
  | 0, _ => [.junk]
  | steps + 1, c :: cs =>
    if isSpace c then tokensWithin steps cs
    else match punctuation? c with
      | some t => t :: tokensWithin steps cs
      | none =>
        if c = '\x22' then
          match Units.read cs with
          | some (us, rest) =>
            .text ((Units.join us).map String.ofList) :: tokensWithin steps rest
          | none => [.junk]
        else match scanWord? (c :: cs) with
          | some (t, rest) => t :: tokensWithin steps rest
          | none => [.junk]

def Token.list (cs : List Char) : List Token := tokensWithin cs.length cs

end SchemaNaming.Config.Json
