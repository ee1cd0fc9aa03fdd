/-!
# Integers in decimal notation

Integers of any size occur, but no more than `digitLimit` decimal digits are written or read.

* `Integer.digits` — the decimal notation of an integer;
* `Integer.writable` — whether it is short enough to be written.
-/

namespace SchemaNaming.Integer

/-- The most decimal digits with which an integer is written or read. -/
def digitLimit : Nat := 4300

def digits (n : Int) : List Char :=
  let ds := Nat.toDigits 10 n.natAbs
  if n < 0 then '-' :: ds else ds

/-- The integer has few enough digits to be written. -/
def writable (n : Int) : Bool := (Nat.toDigits 10 n.natAbs).length ≤ digitLimit

end SchemaNaming.Integer
