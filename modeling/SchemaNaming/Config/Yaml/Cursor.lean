import SchemaNaming.Config.Data

/-!
# Places in a YAML text

Where a token may start depends on its line and column, so a text is read through a cursor that
knows its place. Reading at the end of a text gives the character NUL, which no YAML text holds.

* `isAllowed` — the characters of which a YAML text consists;
* `isBreak`, `isEnding`, `isGap` — line breaks, and the classes of what may end a token;
* `Cursor` — the rest of a text and the place where it starts;
* `Reader` — steps that read from a cursor and may fail.
-/

namespace SchemaNaming.Config.Yaml

/-- The character may occur in a YAML text. -/
def isAllowed (c : Char) : Bool :=
  let n := c.toNat
  n = 9 || n = 10 || n = 13 || (0x20 ≤ n && n ≤ 0x7E) || n = 0x85 || (0xA0 ≤ n && n ≤ 0xD7FF) ||
    (0xE000 ≤ n && n ≤ 0xFFFD) || 0x10000 ≤ n

/-- The character read at the end of a text. -/
def finish : Char := '\x00'

def byteOrderMark : Char := Char.ofNat 0xFEFF

def isBreak (c : Char) : Bool :=
  c = '\n' || c = '\r' || c.toNat = 0x85 || c.toNat = 0x2028 || c.toNat = 0x2029

/-- The end of a line or of the text. -/
def isEnding (c : Char) : Bool := c = finish || isBreak c

/-- A space, or the end of a line or of the text. -/
def isSpaceOrEnding (c : Char) : Bool := c = ' ' || isEnding c

/-- A space or tab, or the end of a line or of the text. -/
def isGap (c : Char) : Bool := c = '\t' || isSpaceOrEnding c

/-- An ASCII letter or digit, a hyphen or an underscore. -/
def isWord (c : Char) : Bool := c.isAlphanum || c = '-' || c = '_'

def isHex (c : Char) : Bool :=
  c.isDigit || ('a' ≤ c && c ≤ 'f') || ('A' ≤ c && c ≤ 'F')

/-- The number that hexadecimal digits denote. -/
def hexNumber (cs : List Char) : Nat :=
  cs.foldl (fun n c => 16 * n +
    (if c.isDigit then c.toNat - 48 else if c.toNat < 97 then c.toNat - 55 else c.toNat - 87)) 0

/-- The rest of a text, and the place where it starts. -/
structure Cursor where
  rest : List Char
  index : Nat := 0
  line : Nat := 0
  column : Nat := 0

namespace Cursor

/-- The cursor behind the next character. A byte order mark takes no column. -/
def next (c : Cursor) : Cursor :=
  match c.rest with
  | [] => c
  | ch :: rest =>
    if isBreak ch then ⟨rest, c.index + 1, c.line + 1, 0⟩
    else ⟨rest, c.index + 1, c.line, if ch = byteOrderMark then c.column else c.column + 1⟩

def skip : Nat → Cursor → Cursor
  | 0, c => c
  | n + 1, c => skip n c.next

/-- The character `i` places ahead. -/
def peek (c : Cursor) (i : Nat := 0) : Char := c.rest.getD i finish

/-- A line at the first column that consists of three times `mark` and a gap, or starts so. -/
def atMark (mark : Char) (c : Cursor) : Bool :=
  c.peek 0 = mark && c.peek 1 = mark && c.peek 2 = mark && isGap (c.peek 3)

/-- A line that separates documents starts here. -/
def atSeparator (c : Cursor) : Bool := c.atMark '-' || c.atMark '.'

end Cursor

/-- Steps that read from a cursor and may fail. -/
abbrev Reader := StateT Cursor (Except Failure)

namespace Reader

def peek (i : Nat := 0) : Reader Char := return (← get).peek i

def skip (n : Nat := 1) : Reader Unit := modify (Cursor.skip n)

/-- Takes the longest run of characters in `p`. -/
def takeWhile (p : Char → Bool) : Reader (List Char) := do
  let run := (← get).rest.takeWhile p
  skip run.length
  return run

def skipSpaces : Reader Unit := discard (takeWhile (· = ' '))

/-- Breaks the rules of the notation. -/
def refuse {α : Type} : Reader α := throw .malformed

/-- Goes on only if the next character is in `p`. -/
def require (p : Char → Bool) : Reader Unit := do
  unless p (← peek) do refuse

/-- Takes a line break, if there is one; the breaks of ASCII customs count as line feeds. -/
def lineBreak : Reader (List Char) := do
  let c ← peek
  if c.toNat = 0x2028 || c.toNat = 0x2029 then
    skip
    return [c]
  else if isBreak c then
    skip (if c = '\r' && (← peek 1) = '\n' then 2 else 1)
    return ['\n']
  else return []

/-- Skips spaces, a comment and the line break behind; nothing else may stand there. -/
def restOfLine : Reader Unit := do
  skipSpaces
  if (← peek) = '#' then discard (takeWhile fun c => !isEnding c)
  require isEnding
  discard lineBreak

end Reader

end SchemaNaming.Config.Yaml
