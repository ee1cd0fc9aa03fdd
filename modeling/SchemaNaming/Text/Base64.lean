/-!
# Base64

Reads bytes written in base 64. Characters outside the alphabet are passed over. The text ends
with the padding that completes a group of four; a group must not end without it.

* `Base64.decode?` — the bytes, unless a group is incomplete.
-/

namespace SchemaNaming.Text.Base64

/-- The six bits that a character stands for. -/
def sextet? (c : Char) : Option Nat :=
  let n := c.toNat
  if 65 ≤ n ∧ n ≤ 90 then some (n - 65)
  else if 97 ≤ n ∧ n ≤ 122 then some (n - 71)
  else if 48 ≤ n ∧ n ≤ 57 then some (n + 4)
  else if c = '+' then some 62
  else if c = '/' then some 63
  else none

/-- The byte that `acc` bits and the sextet `d` complete in the middle of a group. -/
def byteAt (place acc d : Nat) : List UInt8 :=
  if place = 1 then [UInt8.ofNat (acc * 4 + d / 16)]
  else if place = 2 then [UInt8.ofNat (acc * 16 + d / 4)]
  else if place = 3 then [UInt8.ofNat (acc * 64 + d)]
  else []

/-- The bits of the sextet `d` that the next byte begins with. -/
def leftover (place d : Nat) : Nat :=
  if place = 1 then d % 16 else if place = 2 then d % 4 else if place = 3 then 0 else d

/-- Reads on, with `place` sextets of a group read, `pads` padding signs behind them and `acc` bits
not yet used. -/
def decodeFrom (place pads acc : Nat) : List Char → Option (List UInt8)
  | [] => if place = 0 then some [] else none
  | c :: cs =>
    if c = '=' then
      if 2 ≤ place then
        if 4 ≤ place + (pads + 1) then some [] else decodeFrom place (pads + 1) acc cs
      else decodeFrom place pads acc cs
    else match sextet? c with
      | none => decodeFrom place pads acc cs
      | some d =>
        (decodeFrom ((place + 1) % 4) 0 (leftover place d) cs).map (byteAt place acc d ++ ·)

/-- The bytes that the text stands for. -/
def decode? (cs : List Char) : Option (List UInt8) := decodeFrom 0 0 0 cs

end SchemaNaming.Text.Base64
