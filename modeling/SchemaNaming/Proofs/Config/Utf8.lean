import Mathlib
import SchemaNaming.Config.Utf8

/-!
# UTF-8 is read exactly as it is written

A byte string is accepted if and only if it is the encoding of a text, and it is read as that text
(`Utf8.decode_eq_ok_iff`). So different texts have different encodings (`Utf8.encode_injective`).

The argument follows the machine that reads. What it has read of a sequence is the number spelled so
far, and what completes a sequence with `n` bytes to come are the last `n` groups of six bits of a
number that begins like that: `Utf8.tails n v` are the bytes of these groups. Both directions are
inductions on `n`. How a sequence may begin is a matter of its first byte alone. Its bounds on the
second byte are those which keep overlong forms, surrogates and numbers beyond U+10FFFF out
(`Utf8.Sequence.StartsWith.encodeChar`, `Utf8.lead_of_char`).
-/

namespace SchemaNaming.Config

namespace Utf8

/-! ### The bytes behind the first -/

/-- The byte that carries the last six bits of a number. -/
def tail (v : Nat) : UInt8 := UInt8.ofNat (v % 64 + 0x80)

/-- The bytes that carry the last `n` groups of six bits of a number. -/
def tails : Nat → Nat → List UInt8
  | 0, _ => []
  | n + 1, v => tail (v / 64 ^ n) :: tails n v

theorem tail_toNat (v : Nat) : (tail v).toNat = v % 64 + 0x80 := by
  unfold tail
  rw [UInt8.toNat_ofNat']
  omega

/-- A byte that a sequence may go on with is the tail of every number that ends in its payload. -/
theorem eq_tail {b : UInt8} {v : Nat} (h_low : 0x80 ≤ b.toNat) (hv : v % 64 = b.toNat - 0x80) :
    b = tail v := by
  rw [← UInt8.toNat_inj, tail_toNat]
  omega

/-- The sequence is to go on, with a byte that carries six bits. -/
structure Sequence.Open (q : Sequence) : Prop where
  pending : 0 < q.left
  low_ge : 0x80 ≤ q.low
  high_le : q.high ≤ 0xBF

theorem Sequence.Open.exists_left {q : Sequence} (h : q.Open) : ∃ n, q.left = n + 1 :=
  Nat.exists_eq_succ_of_ne_zero (Nat.ne_of_gt h.pending)

/-- The number begins as the sequence does, and its next byte lies within the bounds. -/
structure Sequence.Begins (q : Sequence) (v : Nat) : Prop where
  bits : v / 64 ^ q.left = q.bits
  low_le : q.low ≤ v / 64 ^ (q.left - 1) % 64 + 0x80
  le_high : v / 64 ^ (q.left - 1) % 64 + 0x80 ≤ q.high

/-- The sequence with one byte more. -/
def Sequence.next (q : Sequence) (b : UInt8) : Sequence :=
  { q with
    seen := q.seen + 1
    left := q.left - 1
    bits := 64 * q.bits + (b.toNat - 0x80)
    low := 0x80
    high := 0xBF }

theorem div_pow_succ (v n : Nat) : v / 64 ^ (n + 1) = v / 64 ^ n / 64 := by
  rw [Nat.pow_succ, Nat.div_div_eq_div_mul]

section Machine

variable {i : Nat} {q : Sequence} {b : UInt8} {rest : List UInt8}

theorem decodeFrom_last (h_low : q.low ≤ b.toNat) (h_high : b.toNat ≤ q.high)
    (h_left : q.left = 1) :
    decodeFrom i (some q) (b :: rest)
      = (decodeFrom (i + 1) none rest).map (Char.ofNat (64 * q.bits + (b.toNat - 0x80)) :: ·) := by
  rw [decodeFrom, if_pos ⟨h_low, h_high⟩]
  exact if_pos (Nat.le_of_eq h_left)

theorem decodeFrom_next (h_low : q.low ≤ b.toNat) (h_high : b.toNat ≤ q.high)
    (h_left : 1 < q.left) :
    decodeFrom i (some q) (b :: rest) = decodeFrom (i + 1) (some (q.next b)) rest := by
  rw [decodeFrom, if_pos ⟨h_low, h_high⟩]
  exact if_neg (Nat.not_le_of_lt h_left)

/-- A sequence goes on only with a byte within its bounds. -/
theorem bounds_of_decodeFrom {cs : List Char}
    (h : decodeFrom i (some q) (b :: rest) = .ok cs) : q.low ≤ b.toNat ∧ b.toNat ≤ q.high := by
  refine Decidable.byContradiction fun h_out => ?_
  rw [decodeFrom, if_neg h_out] at h
  cases h

end Machine

/-- **Completing a sequence.** The machine reads the tails of a number that begins as the sequence
does as the rest of that number. -/
theorem decodeFrom_tails {q : Sequence} {v : Nat} (h_begins : q.Begins v) {n : Nat}
    (h_left : q.left = n + 1) (i : Nat) (rest : List UInt8) :
    decodeFrom i (some q) (tails (n + 1) v ++ rest)
      = (decodeFrom (i + (n + 1)) none rest).map (Char.ofNat v :: ·) := by
  induction n generalizing q i with
  | zero =>
    obtain ⟨h_bits, h_low, h_high⟩ := h_begins
    rw [h_left] at h_bits h_low h_high
    have h_byte : (tail (v / 64 ^ 0)).toNat = v % 64 + 0x80 := by
      rw [tail_toNat, Nat.pow_zero, Nat.div_one]
    have h_v : 64 * q.bits + (v % 64 + 0x80 - 0x80) = v := by
      rw [← h_bits, Nat.zero_add, Nat.pow_one]
      omega
    change decodeFrom i (some q) (tail (v / 64 ^ 0) :: rest) = _
    rw [decodeFrom_last (by rw [tail_toNat]; exact h_low) (by rw [tail_toNat]; exact h_high) h_left,
      h_byte, h_v]
  | succ n ih =>
    obtain ⟨h_bits, h_low, h_high⟩ := h_begins
    rw [h_left] at h_bits h_low h_high
    -- the next six bits join those read so far, and behind them every continuation will do
    have h_next : (q.next (tail (v / 64 ^ (n + 1)))).Begins v := by
      have h_group : v / 64 ^ (n + 2) = v / 64 ^ (n + 1) / 64 := div_pow_succ v (n + 1)
      refine ⟨?_, ?_, ?_⟩
      · simp only [Sequence.next, h_left, tail_toNat]
        rw [← h_bits, h_group, Nat.add_sub_cancel, Nat.add_sub_cancel]
        omega
      · simp only [Sequence.next]
        omega
      · simp only [Sequence.next]
        omega
    change decodeFrom i (some q) (tail (v / 64 ^ (n + 1)) :: (tails (n + 1) v ++ rest)) = _
    rw [decodeFrom_next (by rw [tail_toNat]; exact h_low) (by rw [tail_toNat]; exact h_high)
      (by omega), ih h_next (by simp only [Sequence.next]; omega)]
    congr 2
    omega

/-- **What completes a sequence** are the tails of a number that begins as the sequence does. -/
theorem tails_of_decodeFrom {q : Sequence} (h_open : q.Open) {n : Nat} (h_left : q.left = n + 1)
    {i : Nat} {bytes : List UInt8} {cs : List Char} (h : decodeFrom i (some q) bytes = .ok cs) :
    ∃ v rest cs', q.Begins v ∧ bytes = tails (n + 1) v ++ rest ∧ cs = Char.ofNat v :: cs'
      ∧ decodeFrom (i + (n + 1)) none rest = .ok cs' := by
  induction n generalizing q i bytes with
  | zero =>
    cases bytes with
    | nil => cases h
    | cons b rest =>
      obtain ⟨h_low, h_high⟩ := bounds_of_decodeFrom h
      rw [decodeFrom_last h_low h_high h_left] at h
      cases h_rest : decodeFrom (i + 1) none rest with
      | error f =>
        rw [h_rest] at h
        cases h
      | ok cs' =>
        rw [h_rest] at h
        have h_ge := h_open.low_ge
        have h_le := h_open.high_le
        refine ⟨64 * q.bits + (b.toNat - 0x80), rest, cs', ⟨?_, ?_, ?_⟩, ?_, ?_, h_rest⟩
        · rw [h_left, Nat.zero_add, Nat.pow_one]
          omega
        · rw [h_left, Nat.sub_self, Nat.pow_zero, Nat.div_one]
          omega
        · rw [h_left, Nat.sub_self, Nat.pow_zero, Nat.div_one]
          omega
        · change b :: rest = tail (_ / 64 ^ 0) :: rest
          rw [Nat.pow_zero, Nat.div_one, ← eq_tail (b := b) (by omega) (by omega)]
        · exact (Except.ok.inj h).symm
  | succ n ih =>
    cases bytes with
    | nil => cases h
    | cons b bytes =>
      obtain ⟨h_low, h_high⟩ := bounds_of_decodeFrom h
      rw [decodeFrom_next h_low h_high (by omega)] at h
      have h_ge := h_open.low_ge
      have h_le := h_open.high_le
      have h_next : (q.next b).left = n + 1 := by
        simp only [Sequence.next]
        omega
      obtain ⟨v, rest, cs', ⟨h_bits, -, -⟩, rfl, rfl, h_rest⟩ :=
        ih ⟨by omega, Nat.le_refl 0x80, Nat.le_refl 0xBF⟩ h_next h
      -- the number that the induction gives ends in the payload of this byte, further up
      rw [h_next] at h_bits
      simp only [Sequence.next] at h_bits
      have h_group : v / 64 ^ (n + 2) = v / 64 ^ (n + 1) / 64 := div_pow_succ v (n + 1)
      refine ⟨v, rest, cs', ⟨?_, ?_, ?_⟩, ?_, rfl, ?_⟩
      · rw [h_left, h_group]
        omega
      · rw [h_left, Nat.add_sub_cancel]
        omega
      · rw [h_left, Nat.add_sub_cancel]
        omega
      · change b :: (tails (n + 1) v ++ rest) = tail (v / 64 ^ (n + 1)) :: (tails (n + 1) v ++ rest)
        rw [← eq_tail (b := b) (by omega) (by omega)]
      · rw [← h_rest]
        congr 1
        omega

/-! ### The first byte -/

theorem toNat_ofNat {v : Nat} (h : v.isValidChar) : (Char.ofNat v).toNat = v := by
  unfold Char.ofNat
  rw [dif_pos h]
  rfl

section EncodeChar

variable {c : Char} {v : Nat} (hv : c.toNat = v)

include hv

theorem encodeChar_one (h : v < 0x80) : String.utf8EncodeChar c = [UInt8.ofNat v] := by
  have h_val : c.val.toNat = v := hv
  unfold String.utf8EncodeChar
  dsimp only
  rw [h_val, if_pos (by omega)]

theorem encodeChar_two (h_ge : 0x80 ≤ v) (h_lt : v < 0x800) :
    String.utf8EncodeChar c = UInt8.ofNat (v / 64 ^ 1 + 0xC0) :: tails 1 v := by
  have h_val : c.val.toNat = v := hv
  have h_lead : v / 64 % 0x20 = v / 64 ^ 1 := by omega
  unfold String.utf8EncodeChar
  dsimp only
  rw [h_val, if_neg (by omega), if_pos (by omega), h_lead]
  simp only [tails, tail, Nat.pow_zero, Nat.div_one]

theorem encodeChar_three (h_ge : 0x800 ≤ v) (h_lt : v < 0x10000) :
    String.utf8EncodeChar c = UInt8.ofNat (v / 64 ^ 2 + 0xE0) :: tails 2 v := by
  have h_val : c.val.toNat = v := hv
  have h_lead : v / 4096 % 0x10 = v / 64 ^ 2 := by omega
  unfold String.utf8EncodeChar
  dsimp only
  rw [h_val, if_neg (by omega), if_neg (by omega), if_pos (by omega), h_lead]
  simp only [tails, tail, Nat.pow_zero, Nat.pow_one, Nat.div_one]

theorem encodeChar_four (h_ge : 0x10000 ≤ v) (h_lt : v < 0x110000) :
    String.utf8EncodeChar c = UInt8.ofNat (v / 64 ^ 3 + 0xF0) :: tails 3 v := by
  have h_val : c.val.toNat = v := hv
  have h_lead : v / 262144 % 0x08 = v / 64 ^ 3 := by omega
  have h_second : v / 4096 = v / 64 ^ 2 := by omega
  unfold String.utf8EncodeChar
  dsimp only
  rw [h_val, if_neg (by omega), if_neg (by omega), if_neg (by omega), h_lead, h_second]
  simp only [tails, tail, Nat.pow_zero, Nat.pow_one, Nat.div_one]

end EncodeChar

/-- The sequences that a first byte `n` can start, by their length. The second byte is bounded
further behind the first and the last of the bytes for a length, and behind the one that surrogates
start with. -/
inductive Sequence.StartsWith (q : Sequence) (n : Nat) : Prop
  | two (h_ge : 0xC2 ≤ n) (h_le : n ≤ 0xDF) (h_left : q.left = 1) (h_bits : q.bits = n - 0xC0)
      (h_low : q.low = 0x80) (h_high : q.high = 0xBF)
  | three (h_ge : 0xE0 ≤ n) (h_le : n ≤ 0xEF) (h_left : q.left = 2) (h_bits : q.bits = n - 0xE0)
      (h_low : q.low = if n = 0xE0 then 0xA0 else 0x80)
      (h_high : q.high = if n = 0xED then 0x9F else 0xBF)
  | four (h_ge : 0xF0 ≤ n) (h_le : n ≤ 0xF4) (h_left : q.left = 3) (h_bits : q.bits = n - 0xF0)
      (h_low : q.low = if n = 0xF0 then 0x90 else 0x80)
      (h_high : q.high = if n = 0xF4 then 0x8F else 0xBF)

theorem startsWith_of_ofLead? {i : Nat} {b : UInt8} {q : Sequence}
    (h_lead : Sequence.ofLead? i b = some q) : q.StartsWith b.toNat := by
  unfold Sequence.ofLead? at h_lead
  dsimp only at h_lead
  repeat' split at h_lead
  all_goals cases h_lead
  · exact .two (by omega) (by omega) rfl rfl rfl rfl
  · exact .three (by omega) (by omega) rfl (by dsimp only; omega) (by simp_all) (by simp_all)
  · exact .three (by omega) (by omega) rfl (by dsimp only; omega) (by simp_all) (by simp_all)
  · exact .three (by omega) (by omega) rfl rfl (by simp_all) (by simp_all)
  · exact .four (by omega) (by omega) rfl (by dsimp only; omega) (by simp_all) (by simp_all)
  · exact .four (by omega) (by omega) rfl (by dsimp only; omega) (by simp_all) (by simp_all)
  · exact .four (by omega) (by omega) rfl rfl (by simp_all) (by simp_all)

theorem exists_ofLead? (i : Nat) {b : UInt8} (h_ge : 0xC2 ≤ b.toNat) (h_le : b.toNat ≤ 0xF4) :
    ∃ q, Sequence.ofLead? i b = some q := by
  rw [← Option.isSome_iff_exists]
  unfold Sequence.ofLead?
  dsimp only
  repeat' split
  all_goals first | rfl | omega

/-- **What a first byte promises.** A number that begins as the sequence does is that of a
character, and the byte with the tails of the number is its encoding. -/
theorem Sequence.StartsWith.encodeChar {b : UInt8} {q : Sequence} (h : q.StartsWith b.toNat)
    {v : Nat} (h_begins : q.Begins v) :
    String.utf8EncodeChar (Char.ofNat v) = b :: tails q.left v := by
  have h_byte : ∀ {n : Nat}, n = b.toNat → UInt8.ofNat n = b := by
    rintro n rfl
    exact UInt8.ofNat_toNat
  obtain ⟨h_v, h_min, h_max⟩ := h_begins
  -- in each case the bounds on the second byte keep the number within the range of its length
  cases h with
  | two h_ge h_le h_left h_bits h_low h_high =>
    rw [h_left, h_bits] at h_v
    have hv : (Char.ofNat v).toNat = v := toNat_ofNat (.inl (by omega))
    rw [encodeChar_two hv (by omega) (by omega), h_left, h_byte (by omega)]
  | three h_ge h_le h_left h_bits h_low h_high =>
    rw [h_left, h_bits] at h_v
    rw [h_left, h_low] at h_min
    rw [h_left, h_high] at h_max
    have h_valid : v.isValidChar := by
      unfold Nat.isValidChar
      split at h_max <;> omega
    have h_range : 0x800 ≤ v := by
      split at h_min <;> omega
    rw [encodeChar_three (toNat_ofNat h_valid) h_range (by omega), h_left, h_byte (by omega)]
  | four h_ge h_le h_left h_bits h_low h_high =>
    rw [h_left, h_bits] at h_v
    rw [h_left, h_low] at h_min
    rw [h_left, h_high] at h_max
    have h_range : 0x10000 ≤ v := by
      split at h_min <;> omega
    have h_last : v < 0x110000 := by
      split at h_max <;> omega
    have hv : (Char.ofNat v).toNat = v := toNat_ofNat (.inr ⟨by omega, h_last⟩)
    rw [encodeChar_four hv h_range h_last, h_left, h_byte (by omega)]

/-- Conversely the encoding of a character beyond ASCII has a first byte that starts a sequence, and
the character's number begins as that sequence does. -/
theorem lead_of_char (c : Char) (h : 0x80 ≤ c.toNat) (i : Nat) :
    ∃ b q, ¬ b < 128 ∧ Sequence.ofLead? i b = some q ∧ q.Begins c.toNat
      ∧ String.utf8EncodeChar c = b :: tails q.left c.toNat := by
  have h_valid : c.toNat.isValidChar := c.valid
  obtain ⟨v, hv⟩ : ∃ v, c.toNat = v := ⟨_, rfl⟩
  rw [hv] at h h_valid ⊢
  -- what the first byte `n` starts is found by the length that it stands for
  have h_start : ∀ n, 0xC2 ≤ n → n ≤ 0xF4 → (UInt8.ofNat n).toNat = n
      ∧ ¬ UInt8.ofNat n < 128 ∧ ∃ q, Sequence.ofLead? i (UInt8.ofNat n) = some q
        ∧ q.StartsWith n := by
    intro n h_ge h_le
    have h_n : (UInt8.ofNat n).toNat = n := by
      rw [UInt8.toNat_ofNat']
      omega
    obtain ⟨q, hq⟩ := exists_ofLead? i (b := UInt8.ofNat n) (by omega) (by omega)
    refine ⟨h_n, ?_, q, hq, ?_⟩
    · rw [UInt8.lt_iff_toNat_lt, h_n]
      exact Nat.not_lt_of_le (Nat.le_trans (by decide) h_ge)
    · have h_starts := startsWith_of_ofLead? hq
      rwa [h_n] at h_starts
  have h_ranges : v < 0x800 ∨ 0x800 ≤ v ∧ v < 0x10000 ∨ 0x10000 ≤ v := by omega
  rcases h_ranges with h_v | ⟨h_ge, h_v⟩ | h_ge
  · obtain ⟨-, h_ascii, q, hq, h_starts⟩ := h_start (v / 64 ^ 1 + 0xC0) (by omega) (by omega)
    cases h_starts with
    | two _ _ h_left h_bits h_low h_high =>
      refine ⟨_, q, h_ascii, hq, ⟨?_, ?_, ?_⟩, ?_⟩
      · rw [h_left, h_bits, Nat.add_sub_cancel]
      · omega
      · omega
      · rw [h_left, encodeChar_two hv h h_v]
    | three h_lead => omega
    | four h_lead => omega
  · obtain ⟨-, h_ascii, q, hq, h_starts⟩ := h_start (v / 64 ^ 2 + 0xE0) (by omega) (by omega)
    cases h_starts with
    | two _ h_lead => omega
    | three _ _ h_left h_bits h_low h_high =>
      refine ⟨_, q, h_ascii, hq, ⟨?_, ?_, ?_⟩, ?_⟩
      · rw [h_left, h_bits, Nat.add_sub_cancel]
      · -- the shortest form is the only one
        rw [h_left, h_low]
        split <;> omega
      · -- a surrogate is no character
        unfold Nat.isValidChar at h_valid
        rw [h_left, h_high]
        split <;> omega
      · rw [h_left, encodeChar_three hv h_ge h_v]
    | four h_lead => omega
  · have h_v : v < 0x110000 := by
      unfold Nat.isValidChar at h_valid
      omega
    obtain ⟨-, h_ascii, q, hq, h_starts⟩ := h_start (v / 64 ^ 3 + 0xF0) (by omega) (by omega)
    cases h_starts with
    | two _ h_lead => omega
    | three _ h_lead => omega
    | four _ _ h_left h_bits h_low h_high =>
      refine ⟨_, q, h_ascii, hq, ⟨?_, ?_, ?_⟩, ?_⟩
      · rw [h_left, h_bits, Nat.add_sub_cancel]
      · rw [h_left, h_low]
        split <;> omega
      · rw [h_left, h_high]
        split <;> omega
      · rw [h_left, encodeChar_four hv h_ge h_v]

theorem Sequence.StartsWith.open {q : Sequence} {n : Nat} (h : q.StartsWith n) : q.Open := by
  cases h with
  | two _ _ h_left _ h_low h_high => exact ⟨by omega, by omega, by omega⟩
  | three _ _ h_left _ h_low h_high =>
    refine ⟨by omega, ?_, ?_⟩
    · rw [h_low]
      split <;> decide
    · rw [h_high]
      split <;> decide
  | four _ _ h_left _ h_low h_high =>
    refine ⟨by omega, ?_, ?_⟩
    · rw [h_low]
      split <;> decide
    · rw [h_high]
      split <;> decide

/-! ### Texts -/

/-- A character's encoding is read as the character. -/
theorem decodeFrom_encodeChar (c : Char) (i : Nat) (rest : List UInt8) :
    ∃ j, decodeFrom i none (String.utf8EncodeChar c ++ rest)
      = (decodeFrom j none rest).map (c :: ·) := by
  by_cases h : c.toNat < 0x80
  · have h_byte : (UInt8.ofNat c.toNat).toNat = c.toNat := by
      rw [UInt8.toNat_ofNat']
      omega
    have h_ascii : UInt8.ofNat c.toNat < 128 := by
      rw [UInt8.lt_iff_toNat_lt, h_byte]
      exact h
    refine ⟨i + 1, ?_⟩
    rw [encodeChar_one rfl h, List.singleton_append, decodeFrom, if_pos h_ascii, h_byte,
      Char.ofNat_toNat]
  · obtain ⟨b, q, h_ascii, h_lead, h_begins, h_bytes⟩ := lead_of_char c (Nat.le_of_not_lt h) i
    obtain ⟨n, h_left⟩ := (startsWith_of_ofLead? h_lead).open.exists_left
    refine ⟨i + 1 + (n + 1), ?_⟩
    rw [h_bytes, h_left, List.cons_append, decodeFrom, if_neg h_ascii, h_lead]
    dsimp only
    rw [decodeFrom_tails h_begins h_left, Char.ofNat_toNat]

theorem decodeFrom_encode (cs : List Char) (i : Nat) : decodeFrom i none (encode cs) = .ok cs := by
  induction cs generalizing i with
  | nil => rfl
  | cons c cs ih =>
    obtain ⟨j, h_char⟩ := decodeFrom_encodeChar c i (encode cs)
    change decodeFrom i none (String.utf8EncodeChar c ++ encode cs) = _
    rw [h_char, ih]
    rfl

/-- What is read from bytes encodes to them. -/
theorem encode_of_decodeFrom {bytes : List UInt8} {i : Nat} {cs : List Char}
    (h : decodeFrom i none bytes = .ok cs) : bytes = encode cs := by
  -- by recursion on the number of bytes, a whole sequence at a time
  match bytes with
  | [] =>
    obtain rfl := Except.ok.inj h
    rfl
  | b :: bytes =>
    rw [decodeFrom] at h
    by_cases h_ascii : b < 128
    · rw [if_pos h_ascii] at h
      cases h_rest : decodeFrom (i + 1) none bytes with
      | error f =>
        rw [h_rest] at h
        cases h
      | ok cs' =>
        rw [h_rest] at h
        obtain rfl := Except.ok.inj h
        have h_n : b.toNat < 0x80 := UInt8.lt_iff_toNat_lt.mp h_ascii
        have h_char : (Char.ofNat b.toNat).toNat = b.toNat := toNat_ofNat (.inl (by omega))
        change b :: bytes = String.utf8EncodeChar (Char.ofNat b.toNat) ++ encode cs'
        rw [encodeChar_one h_char h_n, UInt8.ofNat_toNat, List.singleton_append,
          encode_of_decodeFrom h_rest]
    · rw [if_neg h_ascii] at h
      cases h_lead : Sequence.ofLead? i b with
      | none =>
        rw [h_lead] at h
        cases h
      | some q =>
        rw [h_lead] at h
        have h_starts := startsWith_of_ofLead? h_lead
        obtain ⟨n, h_left⟩ := h_starts.open.exists_left
        obtain ⟨v, rest, cs', h_begins, h_bytes, rfl, h_rest⟩ :=
          tails_of_decodeFrom h_starts.open h_left h
        have h_shorter : rest.length < (b :: bytes).length := by
          rw [h_bytes, List.length_cons, List.length_append]
          omega
        change b :: bytes = String.utf8EncodeChar (Char.ofNat v) ++ encode cs'
        rw [h_starts.encodeChar h_begins, h_left, h_bytes, List.cons_append,
          encode_of_decodeFrom h_rest]
termination_by bytes.length

/-- **Reading and writing.** Bytes are read as a text if and only if they are its encoding. -/
theorem decode_eq_ok_iff {bytes : List UInt8} {cs : List Char} :
    decode bytes = .ok cs ↔ bytes = encode cs := by
  refine ⟨encode_of_decodeFrom, ?_⟩
  rintro rfl
  exact decodeFrom_encode cs 0

theorem encode_injective {cs ds : List Char} (h : encode cs = encode ds) : cs = ds :=
  Except.ok.inj ((decode_eq_ok_iff.mpr h).symm.trans (decode_eq_ok_iff.mpr rfl)).symm

end Utf8

end SchemaNaming.Config
