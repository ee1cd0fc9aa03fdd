import SchemaNaming.Text.CodePoint
import SchemaNaming.Text.Printable

/-!
# Quoted text

Inside a list or a mapping, and in a message that names a key, a text is written in quotes:

* the quote is the apostrophe, unless the text holds an apostrophe and no double quote;
* the quote in use and the backslash are escaped by a backslash, and tab, line feed and carriage
  return by their letters;
* any other character that is not printable becomes `\xNN`, `\uNNNN` or `\UNNNNNNNN`, the shortest
  of the three that holds its code point.

`quote` does this for texts, `quotePoints` for texts with lone surrogates, which are not printable,
and `quoteBytes` for byte strings, where every byte outside ASCII's printable range is written as
`\xNN` and the whole is marked by a `b` in front.
-/

namespace SchemaNaming.Text

/-- The lower-case hexadecimal digit of `d < 16`. -/
def hexDigit (d : Nat) : Char :=
  if d < 10 then Char.ofNat (48 + d) else Char.ofNat (87 + d)

/-- The last `width` hexadecimal digits of `n`, the highest first. -/
def hexDigits (width n : Nat) : List Char :=
  (List.range width).reverse.map fun i => hexDigit (n / Nat.pow 16 i % 16)

/-- The code point as an escape sequence, in the shortest form that holds it. -/
def escapeCode (n : Nat) : List Char :=
  if n < 0x100 then '\\' :: 'x' :: hexDigits 2 n
  else if n < 0x10000 then '\\' :: 'u' :: hexDigits 4 n
  else '\\' :: 'U' :: hexDigits 8 n

/-- The character as it stands between quotes `q`. -/
def escape (q c : Char) : List Char :=
  if c = q || c = '\\' then ['\\', c]
  else if c = '\n' then ['\\', 'n']
  else if c = '\r' then ['\\', 'r']
  else if c = '\t' then ['\\', 't']
  else if isPrintable c then [c]
  else escapeCode c.toNat

/-- The apostrophe, unless the text needs the double quote to do without escapes. -/
def quoteFor (cs : List Char) : Char :=
  if cs.contains '\x27' && !cs.contains '\x22' then '\x22' else '\x27'

def quote (cs : List Char) : List Char :=
  let q := quoteFor cs
  q :: cs.flatMap (escape q) ++ [q]

/-- The code point as it stands between quotes `q`. -/
def escapePoint (q : Char) : CodePoint → List Char
  | .char c => escape q c
  | .surrogate n => escapeCode n

def quotePoints (ps : List CodePoint) : List Char :=
  let q := quoteFor (ps.map CodePoint.shown)
  q :: ps.flatMap (escapePoint q) ++ [q]

/-- The byte as it stands between quotes `q`. -/
def escapeByte (q : Char) (b : UInt8) : List Char :=
  let c := Char.ofNat b.toNat
  if 127 ≤ b.toNat then escapeCode b.toNat else escape q c

/-- The byte string in quotes, marked by a `b` in front. -/
def quoteBytes (bytes : List UInt8) : List Char :=
  let q := quoteFor (bytes.map fun b => Char.ofNat b.toNat)
  'b' :: q :: bytes.flatMap (escapeByte q) ++ [q]

end SchemaNaming.Text

namespace SchemaNaming

/-- The text in quotes, as it stands inside lists, mappings and messages. -/
def quoted (s : String) : String := String.ofList (Text.quote s.toList)

end SchemaNaming
