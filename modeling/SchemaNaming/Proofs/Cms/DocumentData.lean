import Mathlib.Algebra.Group.Int.Defs
import SchemaNaming.Proofs.Cms.AllOrNothing
import SchemaNaming.Proofs.Value.Leaves

/-!
# The shipped handler on data from a file

What is read from a file has no foreign parts, so the texts that the handler asks for are there,
whatever the document is made of. The one exception is an integer of more than `Integer.digitLimit`
digits. It has no text, alone or inside a collection, and if the handler asks for it the call fails.
Here parts may be nested as deep as one likes; a machine whose stack is bounded may give up on
collections nested in one another a thousand times, which is not part of this account.

* `Cms.isData_of_mem_asked` — the values that the handler asks are parts of the document;
* `Session.FailsOnlyOverlong` — a call fails in no other way, and when it does so;
* `Session.callShipped_returns_iff` — every call for data from a file is of that kind;
* `Session.callShipped_overlong` — there are calls that fail.
-/

namespace SchemaNaming

namespace Cms

/-- The block is a part of the document. -/
theorem isData_of_block? {raw : Value} (h : raw.IsData) {block : Entries}
    (h_block : block? raw = some block) : (Value.map block).IsData := by
  obtain ⟨es, h_es, h_rest⟩ := Option.bind_eq_some_iff.mp h_block
  obtain ⟨b, h_get, h_entries⟩ := Option.bind_eq_some_iff.mp h_rest
  obtain ⟨x, h_find, rfl⟩ := Option.map_eq_some_iff.mp h_get
  rw [← Value.entries?_eq_some_iff.mp h_entries]
  rw [Value.entries?_eq_some_iff.mp h_es] at h
  exact h.of_mem (List.mem_of_find?_eq_some h_find)

theorem isData_of_mem_asked {raw : Value} (h : raw.IsData) {v : Value} (hv : v ∈ asked raw) :
    v.IsData := by
  unfold asked at hv
  cases h_block : block? raw with
  | none =>
    rw [h_block] at hv
    cases hv
  | some block =>
    rw [h_block, Option.elim_some] at hv
    obtain ⟨e, he, rfl⟩ := Metadata.exists_mem_of_scannedIn hv
    exact (isData_of_block? h h_block).of_mem he

end Cms

namespace Session

open Cms

/-- A call of the shipped handler on `raw` returns, or fails because of an integer with too many
digits. -/
structure FailsOnlyOverlong (s : Session) (call : Call) (raw : Value) : Prop where
  /-- Where it fails everything is as before. -/
  answer : (s.step (.callShipped call)).2 = .ok .done
    ∨ s.step (.callShipped call) = (s, .error .tooManyDigits)
  /-- It returns exactly if there is no context, or the integers in the values that it asks for
  their texts have few enough digits. -/
  returns_iff : (s.step (.callShipped call)).2 = .ok .done
    ↔ s.context = none
      ∨ ∀ v ∈ asked raw, ∀ n, .int n ∈ v.leaves → n.natAbs < 10 ^ Integer.digitLimit

/-- A call that does all or nothing is of that kind, if it is for data. -/
theorem AllOrNothing.failsOnlyOverlong {s : Session} {call : Call} {raw : Value} {named : Prop}
    {writes : Context → String → Context → Prop} (h : s.AllOrNothing call raw named writes)
    (h_data : raw.IsData) : s.FailsOnlyOverlong call raw := by
  -- whether the call fails, said of the integers
  have h_fails : ∀ f, (s.step (.callShipped call)).2 = .error f
      ↔ s.context.isSome ∧ f = .tooManyDigits ∧ ∃ v ∈ asked raw, ∃ n, .int n ∈ v.leaves
          ∧ 10 ^ Integer.digitLimit ≤ n.natAbs := by
    intro f
    rw [h.fails_iff f]
    refine and_congr_right fun _ => ?_
    constructor
    · rintro ⟨v, hv, h_text⟩
      obtain ⟨rfl, h_long⟩ := ((isData_of_mem_asked h_data hv).fieldText_error_iff f).mp h_text
      exact ⟨rfl, v, hv, h_long⟩
    · rintro ⟨rfl, v, hv, h_long⟩
      exact ⟨v, hv, ((isData_of_mem_asked h_data hv).fieldText_error_iff _).mpr ⟨rfl, h_long⟩⟩
  -- of the three ways in which a call can go only the first is a failure
  have h_answer : (s.step (.callShipped call)).2 = .ok .done
      ∨ s.step (.callShipped call) = (s, .error .tooManyDigits) := by
    rcases h.outcome with ⟨f, h_call⟩ | ⟨h_call, -⟩ | ⟨_, _, _, _, _, _, _, h_call⟩
    · obtain ⟨-, rfl, -⟩ := (h_fails f).mp (congrArg Prod.snd h_call)
      exact .inr h_call
    · exact .inl (congrArg Prod.snd h_call)
    · exact .inl (congrArg Prod.snd h_call)
  refine ⟨h_answer, ?_, ?_⟩
  · intro h_ok
    cases hc : s.context with
    | none => exact .inl rfl
    | some c =>
      refine .inr fun v hv n hn => ?_
      by_contra h_long
      have h_error := (h_fails .tooManyDigits).mpr
        ⟨by rw [hc]; rfl, rfl, v, hv, n, hn, Nat.le_of_not_lt h_long⟩
      rw [h_ok] at h_error
      cases h_error
  · intro h_short
    refine h_answer.resolve_right fun h_call => ?_
    obtain ⟨h_some, -, v, hv, n, hn, h_long⟩ := (h_fails _).mp (congrArg Prod.snd h_call)
    rcases h_short with h_none | h_short
    · rw [h_none] at h_some
      cases h_some
    · exact Nat.not_lt_of_le h_long (h_short v hv n hn)

/-- How such a call fails. -/
theorem FailsOnlyOverlong.fails {s : Session} {call : Call} {raw : Value}
    (h : s.FailsOnlyOverlong call raw) (hctx : s.context.isSome) {v : Value} (hv : v ∈ asked raw)
    {n : Int} (h_leaf : .int n ∈ v.leaves) (hn : 10 ^ Integer.digitLimit ≤ n.natAbs) :
    s.step (.callShipped call) = (s, .error .tooManyDigits) := by
  refine h.answer.resolve_left fun h_ok => ?_
  rcases h.returns_iff.mp h_ok with h_none | h_short
  · rw [h_none] at hctx
    cases hctx
  · exact Nat.not_lt_of_le hn (h_short v hv n h_leaf)

/-- **Data from a file.** For a document or schema without foreign parts a call of the shipped
handler past the dispatcher returns, unless there is a context and an integer with too many digits
stands in a value that the handler asks for its text. Then the call fails, and changes nothing. -/
theorem callShipped_returns_iff (s : Session) {raw : Value} (h_data : raw.IsData) (name : String) :
    s.FailsOnlyOverlong (.doc raw) raw ∧ s.FailsOnlyOverlong (.schema (.text name) raw) raw :=
  ⟨(allOrNothing_doc s raw).failsOnlyOverlong h_data,
    (allOrNothing_schema s name raw).failsOnlyOverlong h_data⟩

/-! ### A version with too many digits -/

/-- A schema whose block sets the version to an integer. -/
def versioned (n : Int) : Value :=
  .map [(.text "x-cms", .map [(.text "version", .int n)])]

theorem versioned_isData (n : Int) : (versioned n).IsData := by
  intro l hl mark answer
  have h_leaves : (versioned n).leaves = [.text "x-cms", .text "version", .int n] := rfl
  rw [h_leaves] at hl
  rcases List.mem_cons.mp hl with rfl | hl
  · exact nofun
  rcases List.mem_pair.mp hl with rfl | rfl
  · exact nofun
  · exact nofun

/-- The scans for content type and schema find nothing, so the version is asked. -/
theorem mem_asked_versioned (n : Int) : .int n ∈ asked (versioned n) := by
  let block : Entries := [(.text "version", .int n)]
  have h_block : block? (versioned n) = some block := rfl
  have h_type : firstText block Metadata.contentTypeKeys = .ok "" := rfl
  have h_schema : firstText block Metadata.schemaKeys = .ok "" := rfl
  have h_candidates : Metadata.candidates block Metadata.versionKeys = [.int n] := rfl
  have h_version : .int n ∈ Metadata.scanned block Metadata.versionKeys := by
    unfold Metadata.scanned
    rw [h_candidates, Metadata.asked]
    exact List.mem_cons_self
  unfold asked Metadata.fields
  rw [h_block, Option.elim_some, Metadata.scannedIn, h_type, Metadata.scannedIn, h_schema,
    Metadata.scannedIn]
  exact List.mem_append_right _ (List.mem_append_right _ (List.mem_append_left _ h_version))

/-- The smallest integer with too many digits. -/
def overlong : Int := 10 ^ Integer.digitLimit

theorem natAbs_overlong : overlong.natAbs = 10 ^ Integer.digitLimit := by
  have h_ten : (10 : Int).natAbs = 10 := rfl
  rw [overlong, Int.natAbs_pow, h_ten]

theorem callShipped_returns_iff_overlong :
    (versioned overlong).IsData
      ∧ ({} : Session).step (.callShipped (.schema (.text "A") (versioned overlong)))
        = ({}, .error .tooManyDigits) := by
  have h_data := versioned_isData overlong
  obtain ⟨-, h_schema⟩ := callShipped_returns_iff {} h_data "A"
  exact ⟨h_data, h_schema.fails rfl (mem_asked_versioned overlong) (List.mem_singleton.mpr rfl)
    natAbs_overlong.ge⟩

/-- **A call for data from a file can fail.** -/
theorem callShipped_overlong :
    ¬ ∀ (s : Session) (raw : Value) (name : String), raw.IsData →
        (s.step (.callShipped (.doc raw))).2 = .ok .done
          ∧ (s.step (.callShipped (.schema (.text name) raw))).2 = .ok .done := by
  intro h_returns
  have h_data := versioned_isData overlong
  obtain ⟨-, h_ok⟩ := h_returns {} (versioned overlong) "A" h_data
  have h_call := ((allOrNothing_schema {} "A" _).failsOnlyOverlong h_data).fails rfl
    (mem_asked_versioned overlong) (List.mem_singleton.mpr rfl) natAbs_overlong.ge
  rw [h_call] at h_ok
  cases h_ok

end Session

end SchemaNaming
