import SchemaNaming.Config.Yaml.Cursor
import SchemaNaming.Text.CodePoint

/-!
# Scalars in a YAML text

A scalar is written plain, in single or double quotes, or as a block. Line breaks inside fold into
spaces or stay, depending on the notation; double quotes alone have escape sequences, which may
name any code point, surrogates included.

* `Scalar` — the content of a scalar;
* `Reader.quoted`, `Reader.plain`, `Reader.block` — read a scalar in one of the notations.

Loops run for as many steps as there are characters left, and each step takes at least one.
-/

namespace SchemaNaming.Config.Yaml

/-- The content of a scalar. -/
structure Scalar where
  points : List Text.CodePoint := []
  deriving DecidableEq, Repr, Inhabited

namespace Scalar

def ofCodes (codes : List Nat) : Scalar := ⟨codes.map Text.CodePoint.ofNat⟩

def ofChars (cs : List Char) : Scalar := ⟨cs.map .char⟩

/-- The content in characters; a lone surrogate shows as U+FFFD. -/
def chars (s : Scalar) : List Char := s.points.map Text.CodePoint.shown

/-- The content is a text in Unicode. -/
def wellFormed (s : Scalar) : Bool := s.points.all Text.CodePoint.isChar

def text (s : Scalar) : String := String.ofList s.chars

end Scalar

namespace Reader

/-- What a folded line break leaves: a line feed alone becomes a space, unless empty lines follow,
which leave their own breaks. -/
def fold (lineBreak breaks : List Char) : List Char :=
  if lineBreak ≠ ['\n'] then lineBreak ++ breaks
  else if breaks = [] then [' ']
  else breaks

/-- A number of steps that no loop over the rest of the text exceeds. -/
def steps : Reader Nat := return (← get).rest.length + 1

/-! ### Quoted scalars -/

def codes (cs : List Char) : List Nat := cs.map Char.toNat

/-- The breaks of the empty lines that follow a line break in quotes. A document ends nowhere in
quotes. -/
def quotedBreaksWithin : Nat → Reader (List Char)
  | 0 => refuse
  | n + 1 => do
    if (← get).atSeparator then refuse
    discard (takeWhile fun c => c = ' ' || c = '\t')
    if isBreak (← peek) then
      let b ← lineBreak
      return b ++ (← quotedBreaksWithin n)
    else return []

def quotedBreaks : Reader (List Char) := do quotedBreaksWithin (← steps)

/-- White space in quotes. -/
def quotedSpaces : Reader (List Char) := do
  let spaces ← takeWhile fun c => c = ' ' || c = '\t'
  let c ← peek
  if c = finish then refuse
  else if isBreak c then
    let b ← lineBreak
    return fold b (← quotedBreaks)
  else return spaces

/-- The code point that a one-letter escape stands for. -/
def escapeCode? (c : Char) : Option Nat :=
  if c = '0' then some 0
  else if c = 'a' then some 7
  else if c = 'b' then some 8
  else if c = 't' || c = '\t' then some 9
  else if c = 'n' then some 10
  else if c = 'v' then some 11
  else if c = 'f' then some 12
  else if c = 'r' then some 13
  else if c = 'e' then some 0x1B
  else if c = ' ' || c = '\x22' || c = '\\' || c = '/' then some c.toNat
  else if c = 'N' then some 0x85
  else if c = '_' then some 0xA0
  else if c = 'L' then some 0x2028
  else if c = 'P' then some 0x2029
  else none

/-- The number of hexadecimal digits behind the letter of an escape. -/
def escapeWidth? (c : Char) : Option Nat :=
  if c = 'x' then some 2 else if c = 'u' then some 4 else if c = 'U' then some 8 else none

/-- The code point written in the next `width` hexadecimal digits. -/
def hexCode (width : Nat) : Reader (List Nat) := do
  let ds := (← get).rest.take width
  unless ds.length = width && ds.all isHex do refuse
  let n := hexNumber ds
  if 0x7FFFFFFF < n then throw (.fault .hugeCodePoint)
  if 0x10FFFF < n then throw (.fault .badCodePoint)
  skip width
  return [n]

/-- The code points that an escape sequence stands for; the backslash has been read. An escaped
line break leaves nothing but the empty lines behind it. -/
def escape : Reader (List Nat) := do
  let c ← peek
  if let some n := escapeCode? c then
    skip
    return [n]
  if let some width := escapeWidth? c then
    skip
    hexCode width
  else if isBreak c then
    discard lineBreak
    return codes (← quotedBreaks)
  else refuse

/-- The code points of a quoted scalar up to its closing quote. -/
def quotedWithin (double : Bool) : Nat → Reader (List Nat)
  | 0 => refuse
  | n + 1 => do
    let run ← takeWhile fun c => !(isGap c || c = '\x27' || c = '\x22' || c = '\\')
    let more (cs : List Nat) : Reader (List Nat) := do
      return codes run ++ cs ++ (← quotedWithin double n)
    let c ← peek
    if !double && c = '\x27' && (← peek 1) = '\x27' then
      skip 2
      more [c.toNat]
    else if c = (if double then '\x22' else '\x27') then
      skip
      return codes run
    else if c = '\x27' || c = '\x22' || (!double && c = '\\') then
      skip
      more [c.toNat]
    else if c = '\\' then
      skip
      more (← escape)
    else more (codes (← quotedSpaces))

def quoted (double : Bool) : Reader Scalar := do
  skip
  return Scalar.ofCodes (← quotedWithin double (← steps))

/-! ### Plain scalars -/

/-- The character has a meaning between brackets. -/
def isFlowMark (c : Char) : Bool :=
  c = ',' || c = '[' || c = ']' || c = '\x7b' || c = '\x7d'

/-- The character `c`, with `d` behind it, does not belong to a plain scalar. -/
def endsPlain (flow : Bool) (c d : Char) : Bool :=
  isGap c || (c = ':' && (isGap d || (flow && isFlowMark d))) ||
    (flow && (isFlowMark c || c = '?'))

/-- The characters of a plain scalar up to the next white space. -/
def plainRun (flow : Bool) : List Char → List Char
  | [] => []
  | c :: cs => if endsPlain flow c (cs.headD finish) then [] else c :: plainRun flow cs

/-- The breaks of the lines that follow a line break in a plain scalar; none where a document
ends. -/
def plainBreaksWithin : Nat → Reader (Option (List Char))
  | 0 => refuse
  | n + 1 => do
    if (← get).atSeparator then return none
    skipSpaces
    if isBreak (← peek) then
      let b ← lineBreak
      return (← plainBreaksWithin n).map (b ++ ·)
    else return some []

/-- White space in a plain scalar, and whether it holds a line break. Nothing of it counts where
a document ends. -/
def plainSpaces : Reader (List Char × Bool) := do
  let spaces ← takeWhile (· = ' ')
  if isBreak (← peek) then
    let b ← lineBreak
    match ← plainBreaksWithin (← steps) with
    | none => return ([], true)
    | some breaks => return (fold b breaks, true)
  else return (spaces, false)

/-- The characters of a plain scalar that goes on after `spaces`, and whether a line break follows
it. Outside of brackets the scalar ends at a line that starts before column `indent`. -/
def plainWithin (flow : Bool) (indent : Int) (spaces : List Char) (broken : Bool) :
    Nat → Reader (List Char × Bool)
  | 0 => refuse
  | n + 1 => do
    if (← peek) = '#' then return ([], broken)
    let run := plainRun flow (← get).rest
    if run = [] then return ([], broken)
    skip run.length
    let (after, broken) ← plainSpaces
    if after = [] || (← peek) = '#' || (!flow && decide ((← get).column < indent)) then
      return (spaces ++ run, broken)
    let (more, broken) ← plainWithin flow indent after broken n
    return (spaces ++ run ++ more, broken)

/-- Reads a plain scalar; answers also whether a line break follows it. -/
def plain (flow : Bool) (indent : Int) : Reader (Scalar × Bool) := do
  let (cs, broken) ← plainWithin flow indent [] false (← steps)
  return (.ofChars cs, broken)

/-! ### Block scalars -/

/-- What becomes of the line breaks at the end of a block. -/
inductive Chomping where
  | strip
  | clip
  | keep
  deriving DecidableEq

def chomping? (c : Char) : Option Chomping :=
  if c = '+' then some .keep else if c = '-' then some .strip else none

/-- A digit from 1 to 9, if the next character is a digit. -/
def indentation? : Reader (Option Nat) := do
  let c ← peek
  if c.isDigit then
    if c = '0' then refuse
    skip
    return some (c.toNat - 48)
  else return none

/-- A sign for the chomping, if the next character is one. -/
def chompingSign? : Reader (Option Chomping) := do
  match chomping? (← peek) with
  | some k =>
    skip
    return some k
  | none => return none

/-- The header of a block: chomping and indentation in either order. -/
def blockHeader : Reader (Chomping × Option Nat) := do
  match ← chompingSign? with
  | some k => return (k, ← indentation?)
  | none =>
    match ← indentation? with
    | none => return (.clip, none)
    | some n => return ((← chompingSign?).getD .clip, some n)

/-- Skips the empty lines in front of a block; answers with their breaks and the deepest column
that their spaces reach. -/
def blockIndentWithin (deepest : Nat) : Nat → Reader (List Char × Nat)
  | 0 => refuse
  | n + 1 => do
    let c ← peek
    if c = ' ' then
      skip
      blockIndentWithin (max deepest (← get).column) n
    else if isBreak c then
      let b ← lineBreak
      let (breaks, deepest) ← blockIndentWithin deepest n
      return (b ++ breaks, deepest)
    else return ([], deepest)

/-- Skips spaces up to the column `indent`. -/
def skipIndent (indent : Nat) : Reader Unit := do
  let column := (← get).column
  let spaces := ((← get).rest.take (indent - column)).takeWhile (· = ' ')
  skip spaces.length

/-- The breaks of the empty lines between the lines of a block. -/
def blockBreaksWithin (indent : Nat) : Nat → Reader (List Char)
  | 0 => refuse
  | n + 1 => do
    skipIndent indent
    if isBreak (← peek) then
      let b ← lineBreak
      return b ++ (← blockBreaksWithin indent n)
    else return []

def blockBreaks (indent : Nat) : Reader (List Char) := do blockBreaksWithin indent (← steps)

/-- The line starts with white space, so that the breaks around it do not fold. -/
def isIndented (c : Char) : Bool := c = ' ' || c = '\t'

/-- A line of the block stands at the cursor. -/
def atBlockLine (indent : Nat) : Reader Bool :=
  return (← get).column = indent && (← peek) ≠ finish

/-- The lines of a block, behind the breaks of the empty lines before them. Answers with the text,
the break of the last line and the breaks of the empty lines after it. -/
def blockLinesWithin (folded : Bool) (indent : Nat) (breaks : List Char) :
    Nat → Reader (List Char × List Char × List Char)
  | 0 => refuse
  | n + 1 => do
    let indented := isIndented (← peek)
    let run ← takeWhile fun c => !isEnding c
    let b ← lineBreak
    let next ← blockBreaks indent
    if ← atBlockLine indent then
      let joint :=
        if folded && b = ['\n'] && !indented && !isIndented (← peek) then
          (if next = [] then [' '] else [])
        else b
      let (more, last, tail) ← blockLinesWithin folded indent next n
      return (breaks ++ run ++ joint ++ more, last, tail)
    else return (breaks ++ run, b, next)

/-- Reads a block scalar inside a collection that is indented to column `indent`. -/
def block (folded : Bool) (indent : Int) : Reader Scalar := do
  skip
  let (chomping, increment) ← blockHeader
  require isSpaceOrEnding
  restOfLine
  let least := (max (indent + 1) 1).toNat
  let (breaks, indent) ← match increment with
    | some n =>
      let indent := least + n - 1
      pure (← blockBreaks indent, indent)
    | none =>
      let (breaks, deepest) ← blockIndentWithin 0 (← steps)
      pure (breaks, max least deepest)
  let (text, last, tail) ←
    if ← atBlockLine indent then blockLinesWithin folded indent breaks (← steps)
    else pure ([], [], breaks)
  return .ofChars (text ++ (if chomping = .strip then [] else last) ++
    (if chomping = .keep then tail else []))

end Reader

end SchemaNaming.Config.Yaml
