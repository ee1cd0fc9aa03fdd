import SchemaNaming.Proofs.Cms.Update
import SchemaNaming.Proofs.Dispatch.Registered
import SchemaNaming.Proofs.Identifier.Forms

/-!
# All or nothing

A call of the shipped handler past the dispatcher reads a block first, and writes afterwards. So it
never leaves a context half written: it fails with everything as before, or it returns with
everything as before, or it records one identifier and returns.

* `Cms.asked` — the values of a document or schema whose texts the handler asks for, and
  `Cms.readFault?_eq_some_iff`: the call fails exactly if one of these texts does;
* `Cms.NamesDoc`, `Cms.NamesSchema` — when there is an identifier to record;
* `Context.Records` — what recording a name changes, and what it leaves as it was;
* `Session.callShipped_allOrNothing` — the three ways in which a call can go.
-/

namespace SchemaNaming

/-! ### Recording a name -/

/-- The second context is the first one with the name recorded, the current name aside. -/
structure Context.Records (name resolved : String) (c c' : Context) : Prop where
  names : ∃ es, c'.nameMap = some es ∧ Entries.SetAt (.text name) (.text resolved) c.names es
  doc : c'.doc = c.doc
  caller : c'.caller = c.caller

theorem Context.records_record (c : Context) (name resolved : String) :
    Context.Records name resolved c (c.record name resolved) where
  names := ⟨_, rfl, Entries.setAt_set c.names name (.text resolved)⟩
  doc := rfl
  caller := rfl

namespace Cms

/-! ### What the handler asks and what it finds -/

/-- The values in the block of a document or schema whose texts the handler asks for. -/
def asked (raw : Value) : List Value :=
  (block? raw).elim [] fun block => Metadata.scannedIn block Metadata.fields

theorem readFault?_eq_some_iff (raw : Value) (f : Fault) :
    readFault? raw = some f ↔ ∃ v ∈ asked raw, v.fieldText = .error f := by
  unfold asked
  rcases block_cases raw with ⟨h_block, -, h⟩ | ⟨block, g, h_block, h_read, -, h⟩
    | ⟨block, m, h_block, h_read, -, h⟩
  · rw [h, h_block]
    exact iff_of_false nofun fun ⟨_, hv, _⟩ => nomatch hv
  · rw [h, h_block, Option.elim_some, ← Metadata.ofBlock_error_iff, h_read, Option.some.injEq,
      Except.error.injEq]
  · rw [h, h_block, Option.elim_some, ← Metadata.ofBlock_error_iff, h_read]
    exact iff_of_false nofun nofun

theorem schema_not_blank {raw : Value} {m : Metadata} (hm : metadata? raw = some m) :
    m.schema = "" ∨ isBlankText m.schema = false := by
  rcases block_cases raw with ⟨-, h, -⟩ | ⟨_, _, -, -, h, -⟩ | ⟨block, m', -, h_read, h, -⟩
  · rw [h] at hm
    cases hm
  · rw [h] at hm
    cases hm
  · rw [h] at hm
    obtain rfl := Option.some.inj hm
    exact Metadata.firstText_not_blank (Metadata.ofBlock_ok h_read).2.1

/-- The metadata of a document name it: they have a content type and an identifier. -/
def NamesDoc (raw : Value) : Prop :=
  ∃ m, metadata? raw = some m ∧ m.contentType ≠ "" ∧ m.identifier ≠ ""

/-- The metadata of a schema give it an identifier, with its name for a content type that is not
set. -/
def NamesSchema (name : String) (raw : Value) : Prop :=
  ∃ m, metadata? raw = some m ∧ (m.forSchema name).identifier ≠ ""

theorem docIdentifier?_eq_some_iff {raw : Value} {name r : String} :
    docIdentifier? raw = some (name, r)
      ↔ ∃ m, metadata? raw = some m ∧ m.contentType = name ∧ m.identifier = r
          ∧ name ≠ "" ∧ r ≠ "" := by
  unfold docIdentifier?
  rw [Option.filter_eq_some_iff, Option.map_eq_some_iff]
  have h_filter : (!(name.isEmpty || r.isEmpty)) = true ↔ name ≠ "" ∧ r ≠ "" := by simp
  rw [h_filter]
  constructor
  · rintro ⟨⟨m, hm, h_pair⟩, h_some⟩
    obtain ⟨h_type, h_id⟩ := Prod.mk.inj h_pair
    exact ⟨m, hm, h_type, h_id, h_some⟩
  · rintro ⟨m, hm, rfl, rfl, h_some⟩
    exact ⟨⟨m, hm, rfl⟩, h_some⟩

theorem identifier?_eq_some_iff {name : String} {raw : Value} {r : String} :
    identifier? name raw = some r
      ↔ ∃ m, metadata? raw = some m ∧ (m.forSchema name).identifier = r ∧ r ≠ "" := by
  unfold identifier?
  rw [Option.filter_eq_some_iff, Option.map_eq_some_iff]
  have h_filter : (!r.isEmpty) = true ↔ r ≠ "" := by simp
  rw [h_filter]
  constructor
  · rintro ⟨⟨m, hm, h_id⟩, h_some⟩
    exact ⟨m, hm, h_id, h_some⟩
  · rintro ⟨m, hm, h_id, h_some⟩
    exact ⟨⟨m, hm, h_id⟩, h_some⟩

end Cms

namespace Session

open Cms

/-! ### Calls past the dispatcher -/

section CallShipped

variable {s : Session} {call : Call}

theorem callShipped_of_none (hc : s.context = none) :
    s.step (.callShipped call) = (s, .ok .done) := by
  change finish (s.performAll (react call s.context)) = _
  rw [hc]
  rfl

/-- With a context the call updates it, and fails if the block cannot be read. -/
theorem callShipped_of_updates {update : Context → Context} {fault? : Option Fault}
    (hu : Updates call update fault?) {c : Context} (hc : s.context = some c) :
    s.step (.callShipped call)
      = ({ s with context := some (update c) }, fault?.elim (.ok .done) .error) := by
  change finish (s.performAll (react call s.context)) = _
  rw [hc, hu.perform s c hc]
  cases fault? with
  | none => rfl
  | some f => rfl

end CallShipped

/-- A call of the shipped handler on `raw` does all or nothing. `named` says whether there is an
identifier to record, and `writes` what recording it makes of the context. -/
structure AllOrNothing (s : Session) (call : Call) (raw : Value) (named : Prop)
    (writes : Context → String → Context → Prop) : Prop where
  /-- It fails with everything as before; or it returns with everything as before, for want of a
  context or of an identifier; or it records an identifier, which is not blank. -/
  outcome :
    (∃ f, s.step (.callShipped call) = (s, .error f))
      ∨ (s.step (.callShipped call) = (s, .ok .done) ∧ (s.context = none ∨ ¬ named))
      ∨ ∃ c c' r, s.context = some c ∧ named ∧ isBlankText r = false ∧ writes c r c'
          ∧ s.step (.callShipped call) = ({ s with context := some c' }, .ok .done)
  /-- It fails exactly if there is a context, and the text of a value that it asks for fails so. -/
  fails_iff : ∀ f, (s.step (.callShipped call)).2 = .error f
    ↔ s.context.isSome ∧ ∃ v ∈ asked raw, v.fieldText = .error f

/-- A call that updates the context does all or nothing, if it updates nothing where the block
cannot be read. -/
theorem allOrNothing_of_updates {call : Call} {raw : Value} {named : Prop}
    {update : Context → Context} {writes : Context → String → Context → Prop}
    (hu : Updates call update (readFault? raw))
    (h_unread : ∀ f, readFault? raw = some f → ∀ c, update c = c)
    (h_update : ∀ c, (update c = c ∧ ¬ named)
      ∨ named ∧ ∃ r, isBlankText r = false ∧ writes c r (update c))
    (s : Session) : s.AllOrNothing call raw named writes := by
  cases hc : s.context with
  | none =>
    have h_call : s.step (.callShipped call) = (s, .ok .done) := callShipped_of_none hc
    refine ⟨.inr (.inl ⟨h_call, .inl hc⟩), fun f => ?_⟩
    rw [h_call, hc]
    exact iff_of_false nofun nofun
  | some c =>
    have h_call := callShipped_of_updates hu hc
    -- with a context the call fails exactly as reading the block does
    have h_fails : ∀ f, (s.step (.callShipped call)).2 = .error f ↔ readFault? raw = some f := by
      intro f
      rw [h_call]
      cases readFault? raw with
      | none => exact iff_of_false nofun nofun
      | some g => rw [Option.elim_some, Except.error.injEq, Option.some.injEq]
    refine ⟨?_, fun f => ?_⟩
    · cases h_fault : readFault? raw with
      | some f =>
        -- what the call updates then is nothing
        rw [h_fault, h_unread f h_fault c, session_eta hc] at h_call
        exact .inl ⟨f, h_call⟩
      | none =>
        rw [h_fault] at h_call
        rcases h_update c with ⟨h_same, h_unnamed⟩ | ⟨h_named, r, hr, h_writes⟩
        · rw [h_same, session_eta hc] at h_call
          exact .inr (.inl ⟨h_call, .inr h_unnamed⟩)
        · exact .inr (.inr ⟨c, update c, r, hc, h_named, hr, h_writes, h_call⟩)
    · rw [h_fails f, readFault?_eq_some_iff, hc]
      exact (and_iff_right rfl).symm

/-- The identifier of a document's metadata is recorded under their content type. -/
def RecordsDoc (raw : Value) (c : Context) (r : String) (c' : Context) : Prop :=
  ∃ m, metadata? raw = some m ∧ r = m.identifier
    ∧ Context.Records m.contentType r c c' ∧ c'.schemaName = c.schemaName

/-- The identifier of a schema is recorded under its name, and it is the current name. -/
def RecordsSchema (name : String) (raw : Value) (c : Context) (r : String) (c' : Context) : Prop :=
  ∃ m, metadata? raw = some m ∧ r = (m.forSchema name).identifier
    ∧ Context.Records name r c c' ∧ c'.schemaName = .text r

theorem allOrNothing_doc (s : Session) (raw : Value) :
    s.AllOrNothing (.doc raw) raw (NamesDoc raw) (RecordsDoc raw) := by
  refine allOrNothing_of_updates (updates_doc raw) (fun f hf c => ?_) (fun c => ?_) s
  · unfold updateDoc
    rw [(identifiers_of_readFault hf).1]
  · unfold updateDoc
    cases h_id : docIdentifier? raw with
    | none =>
      refine .inl ⟨rfl, fun ⟨m, hm, h_type, h_some⟩ => ?_⟩
      rw [docIdentifier?_eq_some_iff.mpr ⟨m, hm, rfl, rfl, h_type, h_some⟩] at h_id
      cases h_id
    | some e =>
      obtain ⟨m, hm, h_type, h_eq, h_names⟩ := docIdentifier?_eq_some_iff.mp h_id
      rw [← h_type, ← h_eq] at h_names
      have hr : isBlankText m.identifier = false :=
        Metadata.identifier_not_blank (schema_not_blank hm) h_names.2
      refine .inr ⟨⟨m, hm, h_names⟩, m.identifier, hr, m, hm, rfl, ?_, rfl⟩
      dsimp only
      rw [← h_type, ← h_eq]
      exact c.records_record _ _

theorem allOrNothing_schema (s : Session) (name : String) (raw : Value) :
    s.AllOrNothing (.schema (.text name) raw) raw (NamesSchema name raw)
      (RecordsSchema name raw) := by
  refine allOrNothing_of_updates (updates_schema name raw) (fun f hf c => ?_) (fun c => ?_) s
  · unfold updateSchema
    rw [(identifiers_of_readFault hf).2 name]
  · unfold updateSchema
    cases h_id : identifier? name raw with
    | none =>
      refine .inl ⟨rfl, fun ⟨m, hm, h_some⟩ => ?_⟩
      rw [identifier?_eq_some_iff.mpr ⟨m, hm, rfl, h_some⟩] at h_id
      cases h_id
    | some r =>
      obtain ⟨m, hm, rfl, h_some⟩ := identifier?_eq_some_iff.mp h_id
      -- the name that may stand in leaves the schema alone
      have h_schema : m.schema = "" ∨ isBlankText m.schema = false := schema_not_blank hm
      have hr : isBlankText (m.forSchema name).identifier = false :=
        Metadata.identifier_not_blank h_schema h_some
      have h_records := c.records_record name (m.forSchema name).identifier
      exact .inr ⟨⟨m, hm, h_some⟩, _, hr, m, hm, rfl,
        ⟨h_records.names, h_records.doc, h_records.caller⟩, rfl⟩

/-- **All or nothing.** A call of the shipped handler for a document records the identifier of the
document's metadata under their content type, if they have both. A call for a schema records the
schema's identifier under its name, if there is one, and makes it the current name. Otherwise the
call does nothing, and so does a call that fails. Whatever the document or schema is, the call fails
exactly if a text that it asks for does. -/
theorem callShipped_allOrNothing (s : Session) (raw : Value) (name : String) :
    s.AllOrNothing (.doc raw) raw (NamesDoc raw) (RecordsDoc raw)
      ∧ s.AllOrNothing (.schema (.text name) raw) raw (NamesSchema name raw)
          (RecordsSchema name raw) :=
  ⟨allOrNothing_doc s raw, allOrNothing_schema s name raw⟩

end Session

end SchemaNaming
