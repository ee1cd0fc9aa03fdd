import SchemaNaming.Config.Yaml.Merge
import SchemaNaming.Config.Yaml.Number
import SchemaNaming.Text.Base64

/-!
# Typed nodes

A node fits its tag if it is what the tag says: a scalar of the type, a list, a mapping whose keys
can be keys. A document is usable only if all its nodes fit. Scalars are looked at as soon as they
are met; a collection only after all that was met before it, so the nodes are visited in order of
their distance from the root, and it is the first unfit one in that order that is reported.

* `Graph.scalarData` — the data of a scalar that fits its tag;
* `Graph.check` — visits all nodes, which also frees the graph of merge keys;
* `Graph.Visit.unfold` — the data that a visited node stands for, to a given depth.
-/

namespace SchemaNaming.Config.Yaml

namespace Graph

/-- The tags of collections whose values cannot be keys. -/
def collectionTags : List String := [Tag.seq, Tag.map, Tag.set, Tag.omap, Tag.pairs]

/-- The tags of scalars. -/
def scalarTags : List String :=
  [Tag.null, Tag.bool, Tag.int, Tag.float, Tag.binary, Tag.timestamp, Tag.str]

/-- The content of a node that stands for a scalar: a scalar itself, or a mapping by the value
under its key with the value tag. More steps than there are nodes lead around in a circle, which
has no end. -/
def scalarOf (g : Graph) : (steps : Nat) → Nat → Except Failure Scalar
  | 0, _ => .error (.fault .tooDeep)
  | n + 1, id =>
    match g[id]?.map Node.content with
    | some (.scalar s) => .ok s
    | some (.mapping es) =>
      match es.find? fun e => g.tagOf e.1 = Tag.value with
      | some e => scalarOf g n e.2
      | none => .error .malformed
    | _ => .error .malformed

/-- The data of bytes in base 64. -/
def binaryData (s : Scalar) : Except Failure Data :=
  if s.wellFormed && s.chars.all fun c => c.toNat < 128 then
    match Text.Base64.decode? s.chars with
    | some bytes => .ok (.bytes bytes)
    | none => .error .malformed
  else .error .malformed

/-- A check that fails with a fault of its own. -/
def checked (check : Except ReadFault Unit) (d : Data) : Except Failure Data :=
  match check with
  | .error f => .error (.fault f)
  | .ok () => .ok d

def boolData (s : Scalar) : Except Failure Data :=
  let lowered := Text.lowerPoints s.points
  let word := String.ofList (lowered.map Text.CodePoint.shown)
  if Tag.boolWords.contains word then .ok (.bool (["yes", "true", "on"].contains word))
  else .error (.fault (.badBool lowered))

def timestampData (s : Scalar) : Except Failure Data :=
  match Timestamp.read? (Tag.dropLastBreak s.chars) with
  | none => .error (.fault .badTimestamp)
  | some t => checked t.check .timestamp

/-- The data of a scalar that fits its tag. A tag that is none of a scalar's is refused before the
content is looked for. -/
def scalarData (g : Graph) (id : Nat) : Except Failure Data :=
  let tag := g.tagOf id
  if !scalarTags.contains tag then .error .malformed
  else
    match g.scalarOf (g.size + 1) id with
    | .error e => .error e
    | .ok s =>
      if tag = Tag.null then .ok .null
      else if tag = Tag.bool then boolData s
      else if tag = Tag.int then checked (checkInteger s.points) .number
      else if tag = Tag.float then checked (checkFloating s.points) .number
      else if tag = Tag.binary then binaryData s
      else if tag = Tag.timestamp then
        if g.isMapping id then .error (.fault .timestampOfMapping) else timestampData s
      else .ok (if s.wellFormed then .text s.text else .illFormed)

def isCollection (g : Graph) (id : Nat) : Bool := collectionTags.contains (g.tagOf id)

/-- Where the visit of the nodes stands. -/
structure Visit where
  graph : Graph
  /-- The scalars met so far, with their data. -/
  scalars : List (Nat × Data) := []
  /-- The collections met so far. -/
  collections : List Nat := []
  /-- The collections met but not looked into, in reverse order. -/
  waiting : List Nat := []

/-- Meets a node: a scalar is looked at, a collection waits. -/
def Visit.meet (v : Visit) (id : Nat) : Except Failure Visit :=
  if (v.scalars.lookup id).isSome || v.collections.contains id then .ok v
  else if v.graph.isCollection id then
    .ok { v with collections := id :: v.collections, waiting := id :: v.waiting }
  else do
    let d ← v.graph.scalarData id
    return { v with scalars := (id, d) :: v.scalars }

/-- Meets the key and the value of an entry; a collection cannot be a key. -/
def Visit.meetEntry (v : Visit) (e : Nat × Nat) : Except Failure Visit := do
  -- The key is met first: a key that does not fit its tag is reported as that.
  let v ← v.meet e.1
  if v.graph.isCollection e.1 then throw .malformed
  v.meet e.2

/-- Meets the single entry of a member of an ordered mapping. -/
def Visit.meetPair (v : Visit) (id : Nat) : Except Failure Visit := do
  match v.graph.isMapping id, v.graph.entriesOf id with
  | true, [e] => (← v.meet e.1).meet e.2
  | _, _ => throw .malformed

/-- Looks into a collection. -/
def Visit.enter (v : Visit) (id : Nat) : Except Failure Visit := do
  let tag := v.graph.tagOf id
  if tag = Tag.map || tag = Tag.set then
    if !v.graph.isMapping id then throw .malformed
    let graph ← v.graph.merged id
    (graph.entriesOf id).foldlM Visit.meetEntry { v with graph }
  else if !v.graph.isSequence id then throw .malformed
  else if tag = Tag.seq then (v.graph.itemsOf id).foldlM Visit.meet v
  else (v.graph.itemsOf id).foldlM Visit.meetPair v

/-- Looks into the collections that wait, and into those that they lead to. -/
def Visit.rounds : Nat → Visit → Except Failure Visit
  | 0, v => .ok v
  | n + 1, v => do
    if v.waiting = [] then return v
    let round := v.waiting.reverse
    rounds n (← round.foldlM Visit.enter { v with waiting := [] })

/-- Visits all nodes from the root on. -/
def check (g : Graph) (root : Nat) : Except Failure Visit := do
  let v ← Visit.meet { graph := g } root
  v.rounds (g.size + 1)

/-- The data are the same text or the same bytes. -/
def sameMember : Data → Data → Bool
  | .text s, .text t => s = t
  | .bytes s, .bytes t => s = t
  | _, _ => false

/-- The data without later repetitions of a member. -/
def distinct (ds : List Data) : List Data :=
  ds.foldl (fun ds d => if ds.any (sameMember d) then ds else ds ++ [d]) []

/-- The data that a visited node stands for, `depth` levels deep. A scalar keeps the data with which
it was met. The members of an ordered mapping are entries, which are not looked into. -/
def Visit.unfold (v : Visit) : (depth : Nat) → Nat → Data
  | 0, _ => .unread
  | depth + 1, id =>
    let g := v.graph
    let tag := g.tagOf id
    if tag = Tag.map then
      .mapping ((g.entriesOf id).map fun e => (v.unfold depth e.1, v.unfold depth e.2))
    else if tag = Tag.set then
      .set (distinct ((g.entriesOf id).map fun e => v.unfold depth e.1))
    else if tag = Tag.seq then
      .sequence ((g.itemsOf id).map (v.unfold depth))
    else if g.isCollection id then
      .sequence ((g.itemsOf id).map fun _ => .unread)
    else (v.scalars.lookup id).getD .unread

end Graph

/-- The depth to which a configuration is read. -/
def configDepth : Nat := 3

/-- The data of a YAML text; those of a text without documents are null. -/
def parse (cs : List Char) : Except Failure Data := do
  let (g, root) ← Graph.ofTokens (Token.stream cs)
  match root with
  | none => return .null
  | some root => return (← g.check root).unfold configDepth root

end SchemaNaming.Config.Yaml
