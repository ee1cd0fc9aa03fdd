import SchemaNaming.Config.Yaml.Stream
import SchemaNaming.Config.Yaml.Tag

/-!
# The nodes of a YAML document

A document is a graph of nodes: an alias leads to a node that stands elsewhere, perhaps around it.
The graph is built from the tokens of the text by recursive descent.

* `Graph` — nodes, numbered in the order in which they start;
* `Builder` — steps that take tokens and add nodes;
* `Builder.node` — takes the tokens of one node, with all that it contains;
* `Graph.ofTokens` — the graph of a text with a single document, and its root.

The descent has a number of steps that its depth cannot exceed, since on every other level it takes
a token.
-/

namespace SchemaNaming.Config.Yaml

/-- What a node contains; other nodes by their numbers. -/
inductive Content where
  | scalar (s : Scalar)
  | sequence (items : List Nat)
  | mapping (entries : List (Nat × Nat))
  deriving Inhabited

structure Node where
  tag : String
  content : Content
  deriving Inhabited

abbrev Graph := Array Node

/-- What is known while a graph is built. -/
structure Draft where
  tokens : List Token
  graph : Graph := #[]
  anchors : List (String × Nat) := []
  handles : List (String × String) := []

/-- Steps that take tokens and add nodes. -/
abbrev Builder := StateT Draft (Except Failure)

namespace Builder

def refuse {α : Type} : Builder α := throw .malformed

def peek : Builder Token := do
  match (← get).tokens with
  | .halt f :: _ => throw f
  | t :: _ => return t
  | [] => refuse

def take : Builder Unit := modify fun d => { d with tokens := d.tokens.drop 1 }

/-- Takes the next token if it is `t`. -/
def accept (t : Token) : Builder Bool := do
  if (← peek) = t then
    take
    return true
  else return false

/-- The next token is one of `ts`. -/
def sees (ts : List Token) : Builder Bool := return ts.contains (← peek)

/-- Adds a node, to which the anchor leads from here on. No anchor leads to two nodes. -/
def add (anchor : Option String) (n : Node) : Builder Nat := do
  let d ← get
  let id := d.graph.size
  match anchor with
  | none => set { d with graph := d.graph.push n }
  | some a =>
    if (d.anchors.lookup a).isSome then refuse
    set { d with graph := d.graph.push n, anchors := (a, id) :: d.anchors }
  return id

/-- Gives a node its content. -/
def fill (id : Nat) (c : Content) : Builder Nat := do
  modify fun d => { d with graph := d.graph.modify id fun n => { n with content := c } }
  return id

def empty : Builder Nat := add none ⟨Tag.ofPlain [], .scalar {}⟩

/-- The tag that a handle and the rest of a tag make. -/
def completeTag (handle : Option String) (rest : String) : Builder String := do
  match handle with
  | none => return rest
  | some h =>
    match (← get).handles.lookup h with
    | some start => return start ++ rest
    | none => refuse

def anchor? : Builder (Option String) := do
  match ← peek with
  | .anchor a =>
    take
    return some a
  | _ => return none

def tag? : Builder (Option (Option String × String)) := do
  match ← peek with
  | .tag h r =>
    take
    return some (h, r)
  | _ => return none

/-- Takes an anchor and a tag, in either order. -/
def properties : Builder (Option String × Option String) := do
  let (anchor, tag) ← match ← anchor? with
    | some a => pure (some a, ← tag?)
    | none => match ← tag? with
      | some t => pure (← anchor?, some t)
      | none => pure (none, none)
  return (anchor, ← tag.mapM fun t => completeTag t.1 t.2)

/-- The tag of a collection: the given one, unless it leaves the choice open. -/
def collectionTag (given : Option String) (standard : String) : String :=
  match given with
  | none => standard
  | some t => if t = "!" then standard else t

/-- The tag of a scalar: the given one, unless it leaves the choice open. Without any a scalar that
is not plain is a text. -/
def scalarTag (given : Option String) (plain : Bool) (s : Scalar) : String :=
  match given with
  | none => if plain then Tag.ofPlain s.chars else Tag.str
  | some t => if t = "!" then Tag.ofPlain s.chars else t

mutual

/-- Takes a node. Block collections are nodes only where `block` holds, and a list without
indentation of its own only where `indentless` holds. -/
def node (block indentless : Bool) : Nat → Builder Nat
  | 0 => refuse
  | n + 1 => do
    if let .alias a := ← peek then
      take
      match (← get).anchors.lookup a with
      | some id => return id
      | none => refuse
    let (anchor, tag) ← properties
    -- A collection gets its number before its members, so that an alias inside leads to it.
    let sequence (items : Builder (List Nat)) : Builder Nat := do
      let id ← add anchor ⟨collectionTag tag Tag.seq, .sequence []⟩
      fill id (.sequence (← items))
    let mapping (entries : Builder (List (Nat × Nat))) : Builder Nat := do
      let id ← add anchor ⟨collectionTag tag Tag.map, .mapping []⟩
      fill id (.mapping (← entries))
    let t ← peek
    if indentless && t = .blockEntry then sequence (indentlessItems n)
    else match t with
      | .scalar s plain =>
        take
        add anchor ⟨scalarTag tag plain s, .scalar s⟩
      | .flowSequenceStart =>
        take
        sequence (flowItems true n)
      | .flowMappingStart =>
        take
        mapping (flowEntries true n)
      | .blockSequenceStart =>
        if !block then refuseUnless anchor tag else
        take
        sequence (blockItems n)
      | .blockMappingStart =>
        if !block then refuseUnless anchor tag else
        take
        mapping (blockEntries n)
      | _ => refuseUnless anchor tag

/-- Where a node is missing there is an empty scalar, provided it has an anchor or a tag. -/
def refuseUnless (anchor tag : Option String) : Builder Nat := do
  if anchor.isNone && tag.isNone then refuse
  add anchor ⟨scalarTag tag true {}, .scalar {}⟩

/-- Takes a node, unless one of `ends` comes next, which leaves it empty. -/
def nodeUnless (ends : List Token) (block indentless : Bool) : Nat → Builder Nat
  | 0 => refuse
  | n + 1 => do if ← sees ends then empty else node block indentless n

/-- The members of an indented list, up to its end. -/
def blockItems : Nat → Builder (List Nat)
  | 0 => refuse
  | n + 1 => do
    if ← accept .blockEntry then
      let item ← nodeUnless [.blockEntry, .blockEnd] true false n
      return item :: (← blockItems n)
    else if ← accept .blockEnd then return []
    else refuse

/-- The members of a list that is not indented. -/
def indentlessItems : Nat → Builder (List Nat)
  | 0 => refuse
  | n + 1 => do
    if ← accept .blockEntry then
      let item ← nodeUnless [.blockEntry, .key, .value, .blockEnd] true false n
      return item :: (← indentlessItems n)
    else return []

/-- The entries of an indented mapping, up to its end. -/
def blockEntries : Nat → Builder (List (Nat × Nat))
  | 0 => refuse
  | n + 1 => do
    let ends := [Token.key, .value, .blockEnd]
    if ← accept .key then
      let k ← nodeUnless ends true true n
      let v ← if ← accept .value then nodeUnless ends true true n else empty
      return (k, v) :: (← blockEntries n)
    else if ← accept .blockEnd then return []
    else refuse

/-- The value of an entry between brackets: empty without a colon, or right before one of
`ends`. -/
def flowValue (ends : List Token) : Nat → Builder Nat
  | 0 => refuse
  | n + 1 => do
    if ← accept .value then nodeUnless ends false false n else empty

/-- The members of a list between brackets, up to its end; all but the first follow a comma. A
member may be a single entry of a mapping. -/
def flowItems (first : Bool) : Nat → Builder (List Nat)
  | 0 => refuse
  | n + 1 => do
    if ← accept .flowSequenceEnd then return []
    if !first then
      unless ← accept .flowEntry do refuse
    if ← accept .flowSequenceEnd then return []
    let item ←
      if ← accept .key then
        let id ← add none ⟨Tag.map, .mapping []⟩
        let k ← nodeUnless [.value, .flowEntry, .flowSequenceEnd] false false n
        let v ← flowValue [.flowEntry, .flowSequenceEnd] n
        fill id (.mapping [(k, v)])
      else node false false n
    return item :: (← flowItems false n)

/-- The entries of a mapping between braces, up to its end; all but the first follow a comma. A
node without a question mark or colon is a key with an empty value. -/
def flowEntries (first : Bool) : Nat → Builder (List (Nat × Nat))
  | 0 => refuse
  | n + 1 => do
    if ← accept .flowMappingEnd then return []
    if !first then
      unless ← accept .flowEntry do refuse
    if ← accept .flowMappingEnd then return []
    let entry ←
      if ← accept .key then
        let k ← nodeUnless [.value, .flowEntry, .flowMappingEnd] false false n
        pure (k, ← flowValue [.flowEntry, .flowMappingEnd] n)
      else
        let k ← node false false n
        pure (k, ← empty)
    return entry :: (← flowEntries false n)

end

/-! ### Documents -/

/-- Takes the directives in front of a document. The version must be 1, and no directive is
repeated. -/
def directives (version : Bool) : Nat → Builder Unit
  | 0 => refuse
  | n + 1 => do
    match ← peek with
    | .version major =>
      if version || major ≠ 1 then refuse
      take
      directives true n
    | .handle name start =>
      if ((← get).handles.lookup name).isSome then refuse
      take
      modify fun d => { d with handles := (name, start) :: d.handles }
      directives version n
    | .directive =>
      take
      directives version n
    | _ => return ()

/-- The handles that need no directive. -/
def standardHandles : List (String × String) := [("!", "!"), ("!!", Tag.standard)]

/-- Makes the standard handles known, behind those that directives introduced. -/
def addStandardHandles : Builder Unit :=
  modify fun d => { d with handles := d.handles ++ standardHandles }

/-- Skips the marks that end a document. -/
def skipDocumentEnds : Nat → Builder Unit
  | 0 => return ()
  | n + 1 => do if ← accept .documentEnd then skipDocumentEnds n

/-- The number of steps that the tokens at hand allow. -/
def steps : Builder Nat := return 2 * (← get).tokens.length + 4

/-- Takes the directives and the mark with which a document begins. -/
def documentStart : Builder Unit := do
  directives false (← steps)
  unless ← accept .documentStart do refuse
  addStandardHandles

/-- The root of the first document, if there is one. -/
def root? : Builder (Option Nat) := do
  match ← peek with
  | .streamEnd => return none
  | .version _ | .handle .. | .directive | .documentStart =>
    documentStart
    match ← peek with
    | .version _ | .handle .. | .directive | .documentStart | .documentEnd | .streamEnd =>
      return some (← empty)
    | _ => return some (← node true false (← steps))
  | _ =>
    addStandardHandles
    return some (← node true false (← steps))

/-- The root of the only document, if there is one. -/
def onlyRoot? : Builder (Option Nat) := do
  let root ← root?
  if root.isSome then
    skipDocumentEnds (← steps)
    unless (← peek) = .streamEnd do
      modify fun d => { d with handles := [] }
      documentStart
      refuse
  return root

end Builder

/-- The graph of a text with a single document, and its root; a text may also hold none. -/
def Graph.ofTokens (ts : List Token) : Except Failure (Graph × Option Nat) := do
  let (root, d) ← Builder.onlyRoot?.run { tokens := ts }
  return (d.graph, root)

end SchemaNaming.Config.Yaml
