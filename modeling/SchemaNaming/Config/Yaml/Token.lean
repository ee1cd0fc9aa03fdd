import SchemaNaming.Config.Utf8
import SchemaNaming.Config.Yaml.Scalar

/-!
# YAML tokens

The words of a YAML text: marks, anchors, tags, directives and scalars. The beginnings and ends of
block collections, which only indentation shows, are tokens too.

* `Token` — the tokens;
* `Reader.anchorName`, `Reader.tag`, `Reader.directive` — read the words that have a form of their
  own.
-/

namespace SchemaNaming.Config.Yaml

inductive Token where
  | streamEnd
  | version (major : Nat)
  /-- A directive that lets a handle stand for the beginning of a tag. -/
  | handle (name start : String)
  /-- Any other directive. -/
  | directive
  | documentStart
  | documentEnd
  | blockSequenceStart
  | blockMappingStart
  | blockEnd
  | flowSequenceStart
  | flowSequenceEnd
  | flowMappingStart
  | flowMappingEnd
  | blockEntry
  | flowEntry
  | key
  | value
  | alias (name : String)
  | anchor (name : String)
  /-- A tag, to be completed by its handle if it has one. -/
  | tag (handle : Option String) (rest : String)
  | scalar (content : Scalar) (plain : Bool)
  /-- The text cannot be read any further. -/
  | halt (failure : Failure)
  deriving DecidableEq, Repr

namespace Reader

/-- A name of letters, digits, hyphens and underscores. -/
def word : Reader String := do
  let cs ← takeWhile isWord
  if cs = [] then refuse
  return String.ofList cs

/-- The character may stand behind the name of an anchor. -/
def endsAnchor (c : Char) : Bool :=
  isGap c || c = '?' || c = ':' || c = ',' || c = ']' || c = '\x7d' || c = '%' || c = '@' ||
    c = '\x60'

/-- The name of an anchor or alias, behind the mark. -/
def anchorName : Reader String := do
  skip
  let name ← word
  require endsAnchor
  return name

/-! ### Tags -/

/-- The character may stand in a tag as it is. -/
def isTagChar (c : Char) : Bool :=
  c.isAlphanum || "-;/?:@&=+$,_.!~*'()[]".toList.contains c

/-- The bytes written as percent signs with two hexadecimal digits each. -/
def percentBytes : List Char → Option (List UInt8 × List Char)
  | '%' :: a :: b :: cs =>
    if isHex a && isHex b then
      (percentBytes cs).map fun (bytes, rest) => (UInt8.ofNat (hexNumber [a, b]) :: bytes, rest)
    else none
  | '%' :: _ => none
  | cs => some ([], cs)

/-- The characters of a tag. Those that cannot stand in it are written as bytes of UTF-8. -/
def tagCharsWithin : Nat → Reader (List Char)
  | 0 => refuse
  | n + 1 => do
    let run ← takeWhile isTagChar
    if (← peek) = '%' then
      let cs := (← get).rest
      match percentBytes cs with
      | none => refuse
      | some (bytes, rest) =>
        match Utf8.decode bytes with
        | .error _ => refuse
        | .ok decoded =>
          skip (cs.length - rest.length)
          return run ++ decoded ++ (← tagCharsWithin n)
    else return run

/-- The characters of a tag, of which there is at least one. -/
def tagChars : Reader String := do
  let before := (← get).index
  let cs ← tagCharsWithin (← steps)
  if (← get).index = before then refuse
  return String.ofList cs

/-- A handle: an exclamation mark, or a name between two of them. -/
def tagHandle : Reader String := do
  require (· = '!')
  skip
  if (← peek) = ' ' then return "!"
  let cs ← takeWhile isWord
  require (· = '!')
  skip
  return String.ofList ('!' :: cs ++ ['!'])

/-- A second exclamation mark stands in the tag that starts here. -/
def hasHandle (cs : List Char) : Bool :=
  ((cs.drop 1).takeWhile fun c => !isSpaceOrEnding c).contains '!'

/-- A tag: verbatim between angle brackets, a lone exclamation mark, or a handle and its rest. -/
def tag : Reader Token := do
  let c ← peek 1
  let t ←
    if c = '<' then
      skip 2
      let rest ← tagChars
      require (· = '>')
      skip
      pure (Token.tag none rest)
    else if isGap c then
      skip
      pure (Token.tag none "!")
    else if hasHandle (← get).rest then
      let handle ← tagHandle
      pure (Token.tag (some handle) (← tagChars))
    else
      skip
      pure (Token.tag (some "!") (← tagChars))
  require isSpaceOrEnding
  return t

/-! ### Directives -/

/-- A decimal number in a directive. -/
def directiveNumber : Reader Nat := do
  let ds ← takeWhile Char.isDigit
  if ds = [] then refuse
  if Integer.digitLimit < ds.length then throw (.fault (.tooManyDigits ds.length))
  return ds.foldl (fun n c => 10 * n + (c.toNat - 48)) 0

def versionDirective : Reader Token := do
  skipSpaces
  let major ← directiveNumber
  require (· = '.')
  skip
  discard directiveNumber
  require isSpaceOrEnding
  return .version major

/-- The handle in a directive, and what it stands for. -/
def handleDirective : Reader Token := do
  skipSpaces
  let name ← tagHandle
  require (· = ' ')
  skipSpaces
  let start ← tagChars
  require isSpaceOrEnding
  return .handle name start

/-- A directive, with the line that it takes. -/
def directive : Reader Token := do
  skip
  let name ← word
  require isSpaceOrEnding
  let t ←
    if name = "YAML" then versionDirective
    else if name = "TAG" then handleDirective
    else
      discard (takeWhile fun c => !isEnding c)
      pure Token.directive
  restOfLine
  return t

end Reader

end SchemaNaming.Config.Yaml
