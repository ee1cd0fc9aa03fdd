import SchemaNaming.Config.Yaml.Token

/-!
# The token stream of a YAML text

Tokens are found one by one, but what a token means may show only later: a scalar is a key if a
colon follows it on its line, and then the key, and perhaps the beginning of a mapping, belong in
front of it. So the places where a key may have started are remembered, one for each level of
brackets, until the colon comes or the chance has passed.

* `KeyStart` — a place where a key may have started;
* `Layout` — what is known between two tokens;
* `Layout.fetch` — finds the next token;
* `Token.stream` — all tokens of a text.

Where the text cannot be read on, the stream ends with `Token.halt`. It stands in front of the
first token whose meaning was still open, since nothing from there on has been handed out.
-/

namespace SchemaNaming.Config.Yaml

/-- A place where a key may have started. -/
structure KeyStart where
  /-- The number of tokens in front of the key. -/
  position : Nat
  /-- The indentation leaves no choice: it must be a key. -/
  required : Bool
  index : Nat
  line : Nat
  column : Nat

/-- A key from that place cannot reach the cursor: it would leave its line, or be longer than 1024
characters. -/
def KeyStart.isStale (k : KeyStart) (c : Cursor) : Bool :=
  k.line ≠ c.line || 1024 < c.index - k.index

/-- What is known between two tokens. -/
structure Layout where
  cursor : Cursor
  tokens : Array Token := #[]
  /-- The depth of brackets. -/
  flow : Int := 0
  /-- The column of the innermost block collection, and those of the ones around it. -/
  indent : Int := -1
  indents : List Int := []
  /-- A key may start here. -/
  keyAllowed : Bool := true
  /-- The places where a key may have started, by the depth of brackets. -/
  keyStarts : List (Int × KeyStart) := []

/-- Steps that find tokens. -/
abbrev Finder := StateT Layout (Except Failure)

namespace Finder

def refuse {α : Type} : Finder α := throw .malformed

/-- Reads at the cursor. -/
def read {α : Type} (r : Reader α) : Finder α := do
  let l ← get
  match r.run l.cursor with
  | .error f => throw f
  | .ok (a, cursor) =>
    set { l with cursor }
    return a

def emit (t : Token) : Finder Unit := modify fun l => { l with tokens := l.tokens.push t }

def column : Finder Int := return (← get).cursor.column

/-- Outside of brackets. -/
def inBlock : Finder Bool := return (← get).flow = 0

/-! ### Indentation -/

/-- Leaves the block collections that are indented deeper than `column`. -/
def leaveBlocks (column : Int) : Finder Unit := do
  if ← inBlock then
    let l ← get
    let rec go (indent : Int) (tokens : Array Token) :
        List Int → Int × List Int × Array Token
      | [] => (indent, [], tokens)
      | outer :: indents =>
        if column < indent then go outer (tokens.push .blockEnd) indents
        else (indent, outer :: indents, tokens)
    let (indent, indents, tokens) := go l.indent l.tokens l.indents
    set { l with indent, indents, tokens }

/-- Enters a block collection at `column`, unless the innermost one stands there already. -/
def enterBlock (column : Int) : Finder Bool := do
  let l ← get
  if l.indent < column then
    set { l with indent := column, indents := l.indent :: l.indents }
    return true
  else return false

/-! ### Keys -/

/-- Sets whether a key may start here. -/
def allowKey (b : Bool) : Finder Unit := modify fun l => { l with keyAllowed := b }

/-- The place where a key may have started at this depth of brackets. -/
def keyStart? : Finder (Option KeyStart) := do
  let l ← get
  return (l.keyStarts.find? fun k => k.1 = l.flow).map Prod.snd

/-- Forgets the place where a key may have started at this depth of brackets. -/
def dropKeyStart : Finder Unit :=
  modify fun l => { l with keyStarts := l.keyStarts.filter fun k => k.1 ≠ l.flow }

/-- The same, where it is a mistake if there had to be a key. -/
def closeKeyStart : Finder Unit := do
  if (← keyStart?).any KeyStart.required then refuse
  dropKeyStart

/-- Remembers that a key may start here, if it may. -/
def markKeyStart : Finder Unit := do
  let l ← get
  if l.keyAllowed then
    closeKeyStart
    let c := l.cursor
    let required := decide (l.flow = 0 ∧ l.indent = c.column)
    modify fun l => { l with
      keyStarts := (l.flow, ⟨l.tokens.size, required, c.index, c.line, c.column⟩) :: l.keyStarts }

/-- Forgets the places from which a key cannot reach here. -/
def dropStaleKeyStarts : Finder Unit := do
  let l ← get
  if l.keyStarts.any fun k => k.2.isStale l.cursor && k.2.required then refuse
  set { l with keyStarts := l.keyStarts.filter fun k => !k.2.isStale l.cursor }

/-! ### Tokens -/

/-- Skips white space, comments and line breaks in front of a token. A byte order mark may start
the text. -/
def skipToToken : Nat → Finder Unit
  | 0 => refuse
  | n + 1 => do
    if (← get).cursor.index = 0 && (← read Reader.peek) = byteOrderMark then read Reader.skip
    read Reader.skipSpaces
    if (← read Reader.peek) = '#' then
      discard (read (Reader.takeWhile fun c => !isEnding c))
    if isBreak (← read Reader.peek) then
      discard (read Reader.lineBreak)
      if ← inBlock then allowKey true
      skipToToken n

def streamEnd : Finder Unit := do
  leaveBlocks (-1)
  closeKeyStart
  allowKey false
  emit .streamEnd

def directive : Finder Unit := do
  leaveBlocks (-1)
  closeKeyStart
  allowKey false
  emit (← read Reader.directive)

/-- A line that starts or ends a document. -/
def documentMark (t : Token) : Finder Unit := do
  leaveBlocks (-1)
  closeKeyStart
  allowKey false
  read (Reader.skip 3)
  emit t

/-- An opening bracket, which may itself start a key. -/
def openFlow (t : Token) : Finder Unit := do
  markKeyStart
  modify fun l => { l with flow := l.flow + 1 }
  allowKey true
  read Reader.skip
  emit t

/-- A closing bracket. -/
def closeFlow (t : Token) : Finder Unit := do
  closeKeyStart
  modify fun l => { l with flow := l.flow - 1 }
  allowKey false
  read Reader.skip
  emit t

/-- A comma between brackets. -/
def flowEntry : Finder Unit := do
  allowKey true
  closeKeyStart
  read Reader.skip
  emit .flowEntry

/-- The hyphen of a list's member. -/
def blockEntry : Finder Unit := do
  if ← inBlock then
    if !(← get).keyAllowed then refuse
    if ← enterBlock (← column) then emit .blockSequenceStart
  allowKey true
  closeKeyStart
  read Reader.skip
  emit .blockEntry

/-- The question mark in front of a key. -/
def key : Finder Unit := do
  if ← inBlock then
    if !(← get).keyAllowed then refuse
    if ← enterBlock (← column) then emit .blockMappingStart
  allowKey (← inBlock)
  closeKeyStart
  read Reader.skip
  emit .key

/-- Puts a token in front of the one at `position`. -/
def insert (position : Nat) (t : Token) : Finder Unit :=
  modify fun l => { l with tokens := l.tokens.insertIdxIfInBounds position t }

/-- The colon behind a key. It makes the place where a key may have started one. -/
def value : Finder Unit := do
  match ← keyStart? with
  | some k =>
    dropKeyStart
    -- The key stands among the tokens as a node like any other. Its mark goes in front of it now,
    -- and in front of that the start of the mapping, if it is the first key of one.
    insert k.position .key
    if ← inBlock then
      if ← enterBlock k.column then insert k.position .blockMappingStart
    allowKey false
  | none =>
    if ← inBlock then
      if !(← get).keyAllowed then refuse
      if ← enterBlock (← column) then emit .blockMappingStart
    allowKey (← inBlock)
    closeKeyStart
  read Reader.skip
  emit .value

/-- A word that may start a key, and behind which none starts. -/
def keyWord (r : Reader Token) : Finder Unit := do
  markKeyStart
  allowKey false
  emit (← read r)

def blockScalar (folded : Bool) : Finder Unit := do
  allowKey true
  closeKeyStart
  emit (.scalar (← read (Reader.block folded (← get).indent)) false)

/-- A plain scalar. A key may start behind it if its line has ended. -/
def plainScalar : Finder Unit := do
  markKeyStart
  let inFlow := !(← inBlock)
  let (content, broken) ← read (Reader.plain inFlow ((← get).indent + 1))
  allowKey broken
  emit (.scalar content true)

/-- The character `c`, with `d` behind it, starts a plain scalar. -/
def startsPlain (inFlow : Bool) (c d : Char) : Bool :=
  !(isGap c || "-?:,[]\x7b\x7d#&*!|>'\"%@\x60".toList.contains c) ||
    (!isGap d && (c = '-' || (!inFlow && (c = '?' || c = ':'))))

def token : Finder Unit := do
  let cursor := (← get).cursor
  let inFlow := !(← inBlock)
  let c := cursor.peek
  let d := cursor.peek 1
  if c = finish then streamEnd
  else if c = '%' && cursor.column = 0 then directive
  else if cursor.column = 0 && cursor.atMark '-' then documentMark .documentStart
  else if cursor.column = 0 && cursor.atMark '.' then documentMark .documentEnd
  else if c = '[' then openFlow .flowSequenceStart
  else if c = '\x7b' then openFlow .flowMappingStart
  else if c = ']' then closeFlow .flowSequenceEnd
  else if c = '\x7d' then closeFlow .flowMappingEnd
  else if c = ',' then flowEntry
  else if c = '-' && isGap d then blockEntry
  else if c = '?' && (inFlow || isGap d) then key
  else if c = ':' && (inFlow || isGap d) then value
  else if c = '*' then keyWord (Token.alias <$> Reader.anchorName)
  else if c = '&' then keyWord (Token.anchor <$> Reader.anchorName)
  else if c = '!' then keyWord Reader.tag
  else if c = '|' && !inFlow then blockScalar false
  else if c = '>' && !inFlow then blockScalar true
  else if c = '\x27' then keyWord ((Token.scalar · false) <$> Reader.quoted false)
  else if c = '\x22' then keyWord ((Token.scalar · false) <$> Reader.quoted true)
  else if startsPlain inFlow c d then plainScalar
  else refuse

def fetch : Finder Unit := do
  dropStaleKeyStarts
  skipToToken ((← get).cursor.rest.length + 1)
  -- Skipping may have left the line of a key.
  dropStaleKeyStarts
  leaveBlocks (← column)
  token

end Finder

/-- The tokens whose meaning is settled. -/
def Layout.settled (l : Layout) : List Token :=
  let pending := l.keyStarts.filter fun k => !k.2.isStale l.cursor
  l.tokens.toList.take ((pending.map fun k => k.2.position).foldl min l.tokens.size)

/-- The tokens found from here on, within a number of steps that none is needed beyond: each token
takes a character, but for the last. -/
def Layout.streamWithin : Nat → Layout → List Token
  | 0, l => l.settled ++ [.halt .malformed]
  | n + 1, l =>
    match Finder.fetch.run l with
    | .error f => l.settled ++ [.halt f]
    | .ok (_, next) =>
      if next.tokens.back? = some .streamEnd then next.tokens.toList else streamWithin n next

def Token.stream (cs : List Char) : List Token :=
  if cs.all isAllowed then Layout.streamWithin (cs.length + 1) { cursor := { rest := cs } }
  else [.halt .malformed]

end SchemaNaming.Config.Yaml
