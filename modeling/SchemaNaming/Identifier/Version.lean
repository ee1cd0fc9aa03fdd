import SchemaNaming.Text.Blank

/-!
# Version-like texts

A schema reference counts as a bare version number when, blanks at its ends aside, it consists of
one to three groups of ASCII digits with points between them: `2`, `1.4`, `10.0.3`.

* `isVersionLike` — the recogniser, which reads the text once from left to right;
* `startsWithV` — the text already carries the mark of a version.
-/

namespace SchemaNaming

/-- The rest of a version number: `seen` tells whether the current group has a digit already, and
`more` is the number of groups that may still follow. -/
def groupsFrom (more : Nat) (seen : Bool) : List Char → Bool
  | [] => seen
  | c :: cs =>
    if c.isDigit then groupsFrom more true cs
    else if c = '.' && seen then
      match more with
      | 0 => false
      | more + 1 => groupsFrom more false cs
    else false

/-- One, two or three groups of ASCII digits, separated by points. -/
def isVersionLike (s : String) : Bool := groupsFrom 2 false (Text.trim s.toList)

/-- The text starts with the letter v in either case. -/
def startsWithV (s : String) : Bool :=
  match s.toList with
  | c :: _ => c = 'v' || c = 'V'
  | [] => false

end SchemaNaming
