/-!
# Ranges of code points

The tables of character classes list ranges by their first and last code point, in ascending order.
-/

namespace SchemaNaming.Text

/-- The code point lies in one of the ranges. -/
def inRanges (n : Nat) (ranges : List (Nat × Nat)) : Bool :=
  ranges.any fun r => r.1 ≤ n && n ≤ r.2

end SchemaNaming.Text
