import SchemaNaming.Config.Fault

/-!
# Reading bytes as text

A configuration file is UTF-8, and nothing else is accepted: no overlong forms, no surrogates,
nothing beyond U+10FFFF. The bytes are read by a machine that remembers the sequence it is in, so
that a refusal names the bytes from the start of that sequence up to the one that spoils it.

* `Utf8.decode` — the characters of a byte string;
* `Utf8.encode` — the bytes of a text;
* `unifyBreaks` — line breaks of all customs as line feeds.
-/

namespace SchemaNaming.Config

namespace Utf8

/-- A sequence that is not complete yet. -/
structure Sequence where
  /-- The byte that started it, and its position. -/
  lead : UInt8
  start : Nat
  /-- The number of bytes so far, and of those to come. -/
  seen : Nat
  left : Nat
  /-- The number that the payload bits so far spell. -/
  bits : Nat
  /-- The bounds of the next byte. -/
  low : Nat
  high : Nat

/-- The sequence that a byte beyond ASCII starts. -/
def Sequence.ofLead? (start : Nat) (b : UInt8) : Option Sequence :=
  let n := b.toNat
  if 0xC2 ≤ n ∧ n ≤ 0xDF then some ⟨b, start, 1, 1, n - 0xC0, 0x80, 0xBF⟩
  else if n = 0xE0 then some ⟨b, start, 1, 2, 0, 0xA0, 0xBF⟩
  else if n = 0xED then some ⟨b, start, 1, 2, 13, 0x80, 0x9F⟩
  else if 0xE1 ≤ n ∧ n ≤ 0xEF then some ⟨b, start, 1, 2, n - 0xE0, 0x80, 0xBF⟩
  else if n = 0xF0 then some ⟨b, start, 1, 3, 0, 0x90, 0xBF⟩
  else if n = 0xF4 then some ⟨b, start, 1, 3, 4, 0x80, 0x8F⟩
  else if 0xF1 ≤ n ∧ n ≤ 0xF3 then some ⟨b, start, 1, 3, n - 0xF0, 0x80, 0xBF⟩
  else none

/-- The fault of a sequence that does not go on. -/
def Sequence.fault (q : Sequence) (reason : DecodeReason) : ReadFault :=
  .undecodable q.lead q.start q.seen reason

/-- Reads on from byte `i`, in the middle of a sequence if one is given. -/
def decodeFrom (i : Nat) : Option Sequence → List UInt8 → Except ReadFault (List Char)
  | none, [] => .ok []
  | some q, [] => .error (q.fault .unexpectedEnd)
  | none, b :: bytes =>
    if b < 128 then (decodeFrom (i + 1) none bytes).map (Char.ofNat b.toNat :: ·)
    else match Sequence.ofLead? i b with
      | none => .error (.undecodable b i 1 .invalidStart)
      | some q => decodeFrom (i + 1) (some q) bytes
  | some q, b :: bytes =>
    if q.low ≤ b.toNat ∧ b.toNat ≤ q.high then
      let bits := 64 * q.bits + (b.toNat - 0x80)
      if q.left ≤ 1 then (decodeFrom (i + 1) none bytes).map (Char.ofNat bits :: ·)
      else
        decodeFrom (i + 1)
          (some { q with seen := q.seen + 1, left := q.left - 1, bits, low := 0x80, high := 0xBF })
          bytes
    else .error (q.fault .invalidContinuation)

def decode (bytes : List UInt8) : Except ReadFault (List Char) := decodeFrom 0 none bytes

def encode (cs : List Char) : List UInt8 := cs.flatMap String.utf8EncodeChar

end Utf8

/-- A carriage return, alone or before a line feed, becomes a line feed. -/
def unifyBreaks : List Char → List Char
  | '\r' :: '\n' :: cs => '\n' :: unifyBreaks cs
  | c :: cs => (if c = '\r' then '\n' else c) :: unifyBreaks cs
  | [] => []

/-- A text without carriage returns stays as it is. -/
theorem unifyBreaks_of_not_mem {cs : List Char} (h : '\r' ∉ cs) : unifyBreaks cs = cs := by
  fun_induction unifyBreaks cs with
  | case1 => simp at h
  | case2 c cs _ ih =>
    simp only [List.mem_cons, not_or] at h
    rw [ih h.2, if_neg (Ne.symm h.1)]
  | case3 => rfl

end SchemaNaming.Config
