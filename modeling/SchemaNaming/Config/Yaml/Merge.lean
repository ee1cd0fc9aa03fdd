import SchemaNaming.Config.Yaml.Graph

/-!
# Merging mappings

An entry of a mapping whose key has the merge tag stands for the entries of another mapping, or of
each of a list of mappings. They come in front of the mapping's own entries, so that those win.

* `Graph.entriesOf` — the entries of a node, as they are at present;
* `Graph.merged` — the graph in which a mapping, and what it merges, is free of merge keys.

A key with the value tag is a text from then on.
-/

namespace SchemaNaming.Config.Yaml.Graph

/-- The entries of a mapping; other nodes have none. -/
def entriesOf (g : Graph) (id : Nat) : List (Nat × Nat) :=
  match g[id]?.map Node.content with
  | some (.mapping es) => es
  | _ => []

/-- The members of a list; other nodes have none. -/
def itemsOf (g : Graph) (id : Nat) : List Nat :=
  match g[id]?.map Node.content with
  | some (.sequence items) => items
  | _ => []

def tagOf (g : Graph) (id : Nat) : String := (g[id]?.map Node.tag).getD ""

def isMapping (g : Graph) (id : Nat) : Bool :=
  match g[id]?.map Node.content with
  | some (.mapping _) => true
  | _ => false

def isSequence (g : Graph) (id : Nat) : Bool :=
  match g[id]?.map Node.content with
  | some (.sequence _) => true
  | _ => false

/-- The graph with other entries of a mapping. -/
def setEntries (g : Graph) (id : Nat) (es : List (Nat × Nat)) : Graph :=
  g.modify id fun n => { n with content := .mapping es }

/-- The graph in which keys with the value tag are texts. -/
def textKeys (g : Graph) (es : List (Nat × Nat)) : Graph :=
  es.foldl (fun g e =>
    if g.tagOf e.1 = Tag.value then g.modify e.1 fun n => { n with tag := Tag.str } else g) g

/-- The mappings that a merge key's value leads to: itself, or the members of a list. The last
member of a list comes first. -/
def mergeSources (g : Graph) (id : Nat) : Except Failure (List Nat) :=
  if g.isMapping id then .ok [id]
  else if g.isSequence id then
    if (g.itemsOf id).all g.isMapping then .ok (g.itemsOf id).reverse else .error .malformed
  else .error .malformed

/-- The graph in which the mapping `id`, and what it merges, is free of merge keys. A mapping that
is met again on the way has no merge keys left, so the number of nodes bounds the depth. -/
def mergedWithin : Nat → Graph → Nat → Except Failure Graph
  | 0, _, _ => .error .malformed
  | n + 1, g, id => do
    let es := g.entriesOf id
    let isMerge (e : Nat × Nat) : Bool := g.tagOf e.1 = Tag.merge
    if !es.any isMerge then return g.textKeys es
    -- The merge keys go first: a mapping that merges itself must not find them again.
    let own := es.filter fun e => !isMerge e
    let sources ← (es.filter isMerge).flatMapM fun e => g.mergeSources e.2
    let g ← sources.foldlM (mergedWithin n) ((g.setEntries id own).textKeys own)
    return g.setEntries id (sources.flatMap g.entriesOf ++ g.entriesOf id)

def merged (g : Graph) (id : Nat) : Except Failure Graph := mergedWithin (g.size + 1) g id

end SchemaNaming.Config.Yaml.Graph
