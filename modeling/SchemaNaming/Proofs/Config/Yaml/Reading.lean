import Mathlib
import SchemaNaming.Config.Yaml.Token
import SchemaNaming.Proofs.Config.Json
import SchemaNaming.Proofs.Config.Yaml.Outcome

/-!
# What the readers of a YAML text keep

A reader moves along the text and never leaves it, and it fails with a fault for two reasons only:
a directive holds a number of too many digits, or an escape sequence goes beyond the last code
point. Both can be seen in the text (`Accounts`).

* `Cursor.Within`, `Cursor.Behind` — the cursor stands in the text, behind certain characters;
* `Stays` — what every reader keeps: it stays in the text, or the text accounts for its failure;
* one triple for each reader, by the reader's own steps or by induction on its number of steps.

The triples are tagged, so that the triple of a reader is found from those of the readers it calls.
-/

set_option mvcgen.warning false

open Std.Do

namespace SchemaNaming.Config.Yaml

/-! ### Escape sequences -/

/-- An escape sequence beyond the last code point stands in the text. -/
def HasFarEscape (cs : List Char) : Prop :=
  ∃ ds, '\\' :: 'U' :: ds <:+: cs ∧ ds.length = 8 ∧ (∀ d ∈ ds, isHex d = true)
    ∧ 0x10FFFF < hexNumber ds

theorem isHex_value_lt {c : Char} (h : isHex c = true) :
    (if c.isDigit then c.toNat - 48 else if c.toNat < 97 then c.toNat - 55
      else c.toNat - 87) < 16 := by
  have h_range : (48 ≤ c.toNat ∧ c.toNat ≤ 57) ∨ (97 ≤ c.toNat ∧ c.toNat ≤ 102)
      ∨ (65 ≤ c.toNat ∧ c.toNat ≤ 70) := by
    simpa [isHex, Char.isDigit, Char.le_def, UInt32.le_iff_toNat_le, or_assoc] using h
  split
  · next h_digit =>
    have h_digit : 48 ≤ c.toNat ∧ c.toNat ≤ 57 := by
      simpa [Char.isDigit, UInt32.le_iff_toNat_le] using h_digit
    omega
  · split <;> omega

theorem hexNumber_lt {cs : List Char} (h : ∀ c ∈ cs, isHex c = true) :
    hexNumber cs < 16 ^ cs.length := by
  -- The number grows at its last digit.
  induction cs using List.reverseRecOn with
  | nil => decide
  | append_singleton cs c ih =>
    have h_cs := ih fun d hd => h d (List.mem_append_left _ hd)
    have h_c := isHex_value_lt (h c (by simp))
    rw [hexNumber, List.foldl_append, List.length_append]
    rw [hexNumber] at h_cs
    simp only [List.foldl_cons, List.foldl_nil, List.length_cons, List.length_nil, pow_succ]
    omega

/-- Only the longest of the three kinds of escapes has room for a number beyond the last code
point. -/
theorem hasFarEscape_of_lt {cs rest : List Char} {letter : Char} {width : Nat}
    (h_width : Reader.escapeWidth? letter = some width) (h_text : '\\' :: letter :: rest <:+ cs)
    (h_form : ((rest.take width).length = width && (rest.take width).all isHex) = true)
    (h_far : 0x10FFFF < hexNumber (rest.take width)) : HasFarEscape cs := by
  obtain ⟨h_length, h_hex⟩ := Bool.and_eq_true_iff.mp h_form
  rw [decide_eq_true_iff] at h_length
  rw [List.all_eq_true] at h_hex
  have h_bound := hexNumber_lt h_hex
  rw [h_length] at h_bound
  have h_letter : letter = 'U' ∧ width = 8 := by
    unfold Reader.escapeWidth? at h_width
    grind
  obtain ⟨rfl, rfl⟩ := h_letter
  have h_prefix : '\\' :: 'U' :: rest.take 8 <+: '\\' :: 'U' :: rest :=
    (List.prefix_append_right_inj ['\\', 'U']).mpr (List.take_prefix 8 rest)
  exact ⟨rest.take 8, h_prefix.isInfix.trans h_text.isInfix, h_length, h_hex, h_far⟩

/-! ### The cursor and the text -/

/-- The text accounts for the failure: a fault has its reason in it. -/
def Accounts (cs : List Char) : Failure → Prop
  | .malformed => True
  | .fault (.tooManyDigits n) => Integer.digitLimit < n ∧ HasDigits n cs
  | .fault .badCodePoint => HasFarEscape cs
  | .fault .hugeCodePoint => HasFarEscape cs
  | .fault _ => False

namespace Cursor

/-- The cursor stands in the text. -/
def Within (cs : List Char) (c : Cursor) : Prop := c.rest <:+ cs

/-- The cursor stands in the text, right behind `run`. -/
def Behind (cs run : List Char) (c : Cursor) : Prop := run ++ c.rest <:+ cs

theorem Behind.within {cs run : List Char} {c : Cursor} (h : c.Behind cs run) : c.Within cs :=
  (List.suffix_append run c.rest).trans h

@[simp] theorem rest_next (c : Cursor) : c.next.rest = c.rest.drop 1 := by
  unfold next
  split
  · next h => rw [h]; rfl
  · next h =>
    rw [h]
    split <;> rfl

@[simp] theorem rest_skip (c : Cursor) (n : Nat) : (c.skip n).rest = c.rest.drop n := by
  induction n generalizing c with
  | zero => rfl
  | succ n ih => rw [skip, ih, rest_next, List.drop_drop, Nat.add_comm]

theorem Within.skip {cs : List Char} {c : Cursor} (h : c.Within cs) (n : Nat) :
    (c.skip n).Within cs := by
  unfold Within
  rw [rest_skip]
  exact (List.drop_suffix _ _).trans h

/-- A character that is not read at the end of a text stands in it. -/
theorem rest_of_peek {c : Cursor} (h : c.peek ≠ finish) :
    c.rest = c.peek :: c.rest.drop 1 := by
  cases h_rest : c.rest with
  | nil => exact absurd (by simp [peek, h_rest]) h
  | cons d ds => simp [peek, h_rest]

theorem Within.peek_mem {cs : List Char} {c : Cursor} (h : c.Within cs) (h_peek : c.peek ≠ finish) :
    c.peek ∈ cs := by
  refine h.subset ?_
  rw [rest_of_peek h_peek]
  exact List.mem_cons_self

theorem Within.behind {cs : List Char} {c : Cursor} (h : c.Within cs) (h_peek : c.peek ≠ finish) :
    (c.skip 1).Behind cs [c.peek] := by
  unfold Within at h
  rw [rest_of_peek h_peek] at h
  simpa [Behind] using h

theorem Behind.skip {cs run : List Char} {c : Cursor} (h : c.Behind cs run)
    (h_peek : c.peek ≠ finish) : (c.skip 1).Behind cs (run ++ [c.peek]) := by
  unfold Behind at h ⊢
  rw [rest_of_peek h_peek] at h
  simpa using h

end Cursor

/-- **What a reader keeps.** It stays in the text, or the text accounts for its failure. -/
abbrev Stays {α : Type} (cs : List Char) : PostCond α (.arg Cursor (.except Failure .pure)) :=
  post⟨fun _ c => ⌜c.Within cs⌝, fun e => ⌜Accounts cs e⌝⟩

namespace Reader

variable {cs : List Char}

/-! ### Single steps -/

@[spec]
theorem peek_spec (i : Nat) {Q : PostCond Char (.arg Cursor (.except Failure .pure))} :
    ⦃fun c => Q.1 (c.peek i) c⦄ peek i ⦃Q⦄ := by
  mvcgen [peek]

@[spec]
theorem refuse_spec {α : Type} {Q : PostCond α (.arg Cursor (.except Failure .pure))} :
    ⦃fun _ => Q.2.1 .malformed⦄ (refuse : Reader α) ⦃Q⦄ := by
  mvcgen [refuse, -Spec.throw_MonadExcept]

/-- Where it matters to which place a step leads, this takes the place of `skip_spec`. -/
theorem skip_exact (n : Nat) {Q : PostCond Unit (.arg Cursor (.except Failure .pure))} :
    ⦃fun c => Q.1 () (c.skip n)⦄ skip n ⦃Q⦄ := by
  mvcgen [skip]

@[spec]
theorem skip_spec (n : Nat) : ⦃fun c => ⌜c.Within cs⌝⦄ skip n ⦃Stays cs⦄ := by
  mvcgen [skip]
  exact Cursor.Within.skip ‹_› n

@[spec]
theorem takeWhile_spec (p : Char → Bool) :
    ⦃fun c => ⌜c.Within cs⌝⦄ takeWhile p ⦃Stays cs⦄ := by
  mvcgen [takeWhile]

@[spec]
theorem skipSpaces_spec : ⦃fun c => ⌜c.Within cs⌝⦄ skipSpaces ⦃Stays cs⦄ := by
  mvcgen [skipSpaces]

@[spec]
theorem require_spec (p : Char → Bool) : ⦃fun c => ⌜c.Within cs⌝⦄ require p ⦃Stays cs⦄ := by
  mvcgen [require]

@[spec]
theorem lineBreak_spec : ⦃fun c => ⌜c.Within cs⌝⦄ lineBreak ⦃Stays cs⦄ := by
  mvcgen [lineBreak]

@[spec]
theorem restOfLine_spec : ⦃fun c => ⌜c.Within cs⌝⦄ restOfLine ⦃Stays cs⦄ := by
  mvcgen [restOfLine]

@[spec]
theorem steps_spec : ⦃fun c => ⌜c.Within cs⌝⦄ steps ⦃Stays cs⦄ := by
  mvcgen [steps]

/-! ### Quoted scalars -/

@[spec]
theorem quotedBreaksWithin_spec (n : Nat) :
    ⦃fun c => ⌜c.Within cs⌝⦄ quotedBreaksWithin n ⦃Stays cs⦄ := by
  induction n with
  | zero => mvcgen [quotedBreaksWithin]
  | succ n ih => mvcgen [quotedBreaksWithin, ih]

@[spec]
theorem quotedBreaks_spec : ⦃fun c => ⌜c.Within cs⌝⦄ quotedBreaks ⦃Stays cs⦄ := by
  mvcgen [quotedBreaks]

@[spec]
theorem quotedSpaces_spec : ⦃fun c => ⌜c.Within cs⌝⦄ quotedSpaces ⦃Stays cs⦄ := by
  mvcgen [quotedSpaces]

theorem hexCode_spec {letter : Char} {width : Nat} (h_width : escapeWidth? letter = some width) :
    ⦃fun c => ⌜c.Behind cs ['\\', letter]⌝⦄ hexCode width ⦃Stays cs⦄ := by
  mvcgen [hexCode, -Spec.throw_MonadExcept]
  case vc1 c h_behind ds _ h_form n _ h_huge =>
    have h_far : 0x10FFFF < n := by omega
    exact hasFarEscape_of_lt h_width h_behind h_form h_far
  case vc2 c h_behind ds _ h_form n _ _ _ h_far =>
    exact hasFarEscape_of_lt h_width h_behind h_form h_far
  case vc3 c h_behind _ _ _ _ _ _ _ _ => exact h_behind.within

theorem escape_spec : ⦃fun c => ⌜c.Behind cs ['\\']⌝⦄ escape ⦃Stays cs⦄ := by
  mvcgen [escape, hexCode_spec, skip_exact, -skip_spec]
  case vc1 c h_behind _ _ => exact h_behind.within.skip 1
  case vc4 c h_behind _ _ _ width h_width =>
    refine h_behind.skip fun h_end => ?_
    rw [h_end] at h_width
    cases h_width
  case vc5 c h_behind _ _ _ _ _ _ _ => exact h_behind.within

@[spec]
theorem quotedWithin_spec (double : Bool) (n : Nat) :
    ⦃fun c => ⌜c.Within cs⌝⦄ quotedWithin double n ⦃Stays cs⦄ := by
  have h_escape := @escape_spec cs
  induction n with
  | zero => mvcgen [quotedWithin]
  | succ n ih =>
    mvcgen [quotedWithin, ih, h_escape, skip_exact, -skip_spec]
    case vc2 | vc3 | vc4 => exact Cursor.Within.skip ‹_› _
    case vc5 c h_within _ _ _ h_peek =>
      rw [← h_peek]
      refine h_within.behind fun h_end => ?_
      rw [h_end] at h_peek
      cases h_peek

@[spec]
theorem quoted_spec (double : Bool) :
    ⦃fun c => ⌜c.Within cs⌝⦄ quoted double ⦃Stays cs⦄ := by
  mvcgen [quoted]

/-! ### Plain scalars -/

@[spec]
theorem plainBreaksWithin_spec (n : Nat) :
    ⦃fun c => ⌜c.Within cs⌝⦄ plainBreaksWithin n ⦃Stays cs⦄ := by
  induction n with
  | zero => mvcgen [plainBreaksWithin]
  | succ n ih => mvcgen [plainBreaksWithin, ih]

@[spec]
theorem plainSpaces_spec : ⦃fun c => ⌜c.Within cs⌝⦄ plainSpaces ⦃Stays cs⦄ := by
  mvcgen [plainSpaces]

@[spec]
theorem plainWithin_spec (flow : Bool) (indent : Int) (spaces : List Char) (broken : Bool)
    (n : Nat) :
    ⦃fun c => ⌜c.Within cs⌝⦄ plainWithin flow indent spaces broken n ⦃Stays cs⦄ := by
  induction n generalizing spaces broken with
  | zero => mvcgen [plainWithin]
  | succ n ih => mvcgen [plainWithin, ih]

@[spec]
theorem plain_spec (flow : Bool) (indent : Int) :
    ⦃fun c => ⌜c.Within cs⌝⦄ plain flow indent ⦃Stays cs⦄ := by
  mvcgen [plain]

/-! ### Block scalars -/

@[spec]
theorem indentation_spec : ⦃fun c => ⌜c.Within cs⌝⦄ indentation? ⦃Stays cs⦄ := by
  mvcgen [indentation?]

@[spec]
theorem chompingSign_spec : ⦃fun c => ⌜c.Within cs⌝⦄ chompingSign? ⦃Stays cs⦄ := by
  mvcgen [chompingSign?]

@[spec]
theorem blockHeader_spec : ⦃fun c => ⌜c.Within cs⌝⦄ blockHeader ⦃Stays cs⦄ := by
  mvcgen [blockHeader]

@[spec]
theorem blockIndentWithin_spec (deepest n : Nat) :
    ⦃fun c => ⌜c.Within cs⌝⦄ blockIndentWithin deepest n ⦃Stays cs⦄ := by
  induction n generalizing deepest with
  | zero => mvcgen [blockIndentWithin]
  | succ n ih => mvcgen [blockIndentWithin, ih]

@[spec]
theorem skipIndent_spec (indent : Nat) :
    ⦃fun c => ⌜c.Within cs⌝⦄ skipIndent indent ⦃Stays cs⦄ := by
  mvcgen [skipIndent]

@[spec]
theorem blockBreaksWithin_spec (indent n : Nat) :
    ⦃fun c => ⌜c.Within cs⌝⦄ blockBreaksWithin indent n ⦃Stays cs⦄ := by
  induction n with
  | zero => mvcgen [blockBreaksWithin]
  | succ n ih => mvcgen [blockBreaksWithin, ih]

@[spec]
theorem blockBreaks_spec (indent : Nat) :
    ⦃fun c => ⌜c.Within cs⌝⦄ blockBreaks indent ⦃Stays cs⦄ := by
  mvcgen [blockBreaks]

@[spec]
theorem atBlockLine_spec (indent : Nat) :
    ⦃fun c => ⌜c.Within cs⌝⦄ atBlockLine indent ⦃Stays cs⦄ := by
  mvcgen [atBlockLine]

@[spec]
theorem blockLinesWithin_spec (folded : Bool) (indent : Nat) (breaks : List Char) (n : Nat) :
    ⦃fun c => ⌜c.Within cs⌝⦄ blockLinesWithin folded indent breaks n ⦃Stays cs⦄ := by
  induction n generalizing breaks with
  | zero => mvcgen [blockLinesWithin]
  | succ n ih => mvcgen [blockLinesWithin, ih]

@[spec]
theorem block_spec (folded : Bool) (indent : Int) :
    ⦃fun c => ⌜c.Within cs⌝⦄ block folded indent ⦃Stays cs⦄ := by
  mvcgen [block]

/-! ### Anchors, tags and directives -/

@[spec]
theorem word_spec : ⦃fun c => ⌜c.Within cs⌝⦄ word ⦃Stays cs⦄ := by
  mvcgen [word]

@[spec]
theorem anchorName_spec : ⦃fun c => ⌜c.Within cs⌝⦄ anchorName ⦃Stays cs⦄ := by
  mvcgen [anchorName]

@[spec]
theorem tagCharsWithin_spec (n : Nat) : ⦃fun c => ⌜c.Within cs⌝⦄ tagCharsWithin n ⦃Stays cs⦄ := by
  induction n with
  | zero => mvcgen [tagCharsWithin]
  | succ n ih => mvcgen [tagCharsWithin, ih]

@[spec]
theorem tagChars_spec : ⦃fun c => ⌜c.Within cs⌝⦄ tagChars ⦃Stays cs⦄ := by
  mvcgen [tagChars]

@[spec]
theorem tagHandle_spec : ⦃fun c => ⌜c.Within cs⌝⦄ tagHandle ⦃Stays cs⦄ := by
  mvcgen [tagHandle]

@[spec]
theorem tag_spec : ⦃fun c => ⌜c.Within cs⌝⦄ tag ⦃Stays cs⦄ := by
  mvcgen [tag]

@[spec]
theorem directiveNumber_spec : ⦃fun c => ⌜c.Within cs⌝⦄ directiveNumber ⦃Stays cs⦄ := by
  mvcgen [directiveNumber, takeWhile, -takeWhile_spec, -Spec.throw_MonadExcept]
  case vc3 c h_within run _ _ _ _ _ _ h_long =>
    exact ⟨h_long, (hasDigits_takeWhile c.rest).mono h_within.isInfix⟩

@[spec]
theorem versionDirective_spec : ⦃fun c => ⌜c.Within cs⌝⦄ versionDirective ⦃Stays cs⦄ := by
  mvcgen [versionDirective]

@[spec]
theorem handleDirective_spec : ⦃fun c => ⌜c.Within cs⌝⦄ handleDirective ⦃Stays cs⦄ := by
  mvcgen [handleDirective]

@[spec]
theorem directive_spec : ⦃fun c => ⌜c.Within cs⌝⦄ directive ⦃Stays cs⦄ := by
  mvcgen [directive]

end Reader

end SchemaNaming.Config.Yaml
