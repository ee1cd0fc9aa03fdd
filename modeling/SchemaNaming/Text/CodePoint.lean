/-!
# Code points

Escape sequences name code points by number, and not every number has a character: those from
U+D800 to U+DFFF are halves of surrogate pairs. A text that names one is kept as it is said.

* `CodePoint` — a character or a lone surrogate;
* `CodePoint.ofNat` — the code point with a number; `ofNat_toNat` says that no character has the
  number of a surrogate;
* `CodePoint.shown` — the character that stands for a code point where only characters can.
-/

namespace SchemaNaming.Text

/-- A character or a lone surrogate. -/
inductive CodePoint where
  | char (c : Char)
  | surrogate (n : Nat)
  deriving DecidableEq, Repr, Inhabited

namespace CodePoint

def ofNat (n : Nat) : CodePoint :=
  if 0xD800 ≤ n ∧ n ≤ 0xDFFF then surrogate n else char (Char.ofNat n)

/-- The character, or U+FFFD for a lone surrogate. -/
def shown : CodePoint → Char
  | char c => c
  | surrogate _ => Char.ofNat 0xFFFD

def isChar : CodePoint → Bool
  | char _ => true
  | surrogate _ => false

/-- The number of a character names the character. -/
theorem ofNat_toNat (c : Char) : ofNat c.toNat = char c := by
  have h : ¬(0xD800 ≤ c.toNat ∧ c.toNat ≤ 0xDFFF) := by
    have : c.toNat < 0xD800 ∨ 0xDFFF < c.toNat ∧ c.toNat < 0x110000 := c.valid
    omega
  rw [ofNat, if_neg h, Char.ofNat_toNat]

end CodePoint

end SchemaNaming.Text
