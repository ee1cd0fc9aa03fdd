/-!
# Paths

The path that names a configuration file. A path is rooted or not and has components; empty ones
and those that are a single dot say nothing and are left out, which is what keeps two spellings of
one path together. A component of two dots stays: where it leads depends on what the others name.

* `Path.ofString` — the path that a text spells;
* `Path.toString` — its one spelling; the empty path is a dot.
-/

namespace SchemaNaming.Config

/-- What a path starts with. -/
inductive PathRoot where
  /-- Nothing: the path starts at the working directory. -/
  | relative
  | absolute
  /-- Exactly two slashes, which stay two. -/
  | doubled
  deriving DecidableEq, Repr

structure Path where
  root : PathRoot
  components : List String
  deriving DecidableEq, Repr

namespace Path

/-- The pieces of a text between its slashes. -/
def pieces : List Char → List (List Char)
  | [] => [[]]
  | c :: cs =>
    if c = '/' then [] :: pieces cs
    else
      match pieces cs with
      | [] => [[c]]
      | p :: ps => (c :: p) :: ps

/-- A piece that is a component. -/
def isComponent (piece : List Char) : Bool := piece != [] && piece != ['.']

/-- What the slashes in front of a text mean. -/
def rootOf (cs : List Char) : PathRoot :=
  match (cs.takeWhile (· = '/')).length with
  | 0 => .relative
  | 2 => .doubled
  | _ => .absolute

/-- The path that a text spells. -/
def ofString (s : String) : Path where
  root := rootOf s.toList
  components := ((pieces s.toList).filter isComponent).map String.ofList

def rootText : PathRoot → String
  | .relative => ""
  | .absolute => "/"
  | .doubled => "//"

def toString (p : Path) : String :=
  let s := rootText p.root ++ String.intercalate "/" p.components
  if s = "" then "." else s

end Path

end SchemaNaming.Config
