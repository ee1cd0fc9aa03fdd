import SchemaNaming.Proofs.Cms.Scan
import SchemaNaming.Proofs.Dispatch.Pass
import SchemaNaming.Proofs.Mapping

/-!
# What the shipped handler writes

The handler for `x-cms` blocks reads a block, and writes at most one identifier for it. This module
says what it writes without its effects, its faults and the number of such handlers:

* `Cms.identifier?` — the identifier for a schema, of the block's metadata and the schema's name;
* `Cms.docIdentifier?` — the identifier for the document, with the content type that it goes under;
* `Cms.updateDoc`, `Cms.updateSchema` — what one call makes of a context, and `Cms.Updates`, in
  which sense it does so: updating twice is updating once;
* `Session.afterCalls_of_updates` — hence any positive number of such handlers does what one does;
* `Session.pass_none_of_updates` — their pass returns unless reading the block demands the end of
  the run.

A block that cannot be read counts as one without identifier: the call fails before it writes.
-/

namespace SchemaNaming

/-- The metadata for a schema of the given name, which is the content type where the block sets
none. -/
def Metadata.forSchema (m : Metadata) (name : String) : Metadata :=
  { m with contentType := if m.contentType.isEmpty then name else m.contentType }

/-- The context with a name recorded in it. -/
def Context.record (c : Context) (name resolved : String) : Context :=
  { c with nameMap := some (c.names.set (.text name) (.text resolved)) }

theorem Context.record_record_self (c : Context) (name resolved : String) :
    (c.record name resolved).record name resolved = c.record name resolved := by
  unfold record names
  dsimp only [Option.getD_some]
  rw [Entries.set_set_self]

namespace Cms

/-- The metadata in the block of a document or schema, if there is a block and it can be read. -/
def metadata? (raw : Value) : Option Metadata :=
  (block? raw).bind fun block => (Metadata.ofBlock block).toOption

/-- The identifier of the schema called `name`, if it has one. -/
def identifier? (name : String) (raw : Value) : Option String :=
  ((metadata? raw).map fun m => (m.forSchema name).identifier).filter fun r => !r.isEmpty

/-- The content type and the identifier of a document, if it has both. -/
def docIdentifier? (raw : Value) : Option (String × String) :=
  ((metadata? raw).map fun m => (m.contentType, m.identifier)).filter
    fun r => !(r.1.isEmpty || r.2.isEmpty)

/-- The fault met in reading the block, if one is. -/
def readFault? (raw : Value) : Option Fault :=
  (block? raw).bind fun block =>
    match Metadata.ofBlock block with
    | .error f => some f
    | .ok _ => none

/-- What the dispatcher contains is all that the texts of the block's values fail with. -/
def ReadsSafely (raw : Value) : Prop :=
  ∀ block, block? raw = some block → ∀ e ∈ block, ∀ f, e.2.fieldText = .error f → f.contained

/-! ### Reading a block -/

/-- The three ways in which reading a block can go. -/
theorem block_cases (raw : Value) :
    (block? raw = none ∧ metadata? raw = none ∧ readFault? raw = none)
      ∨ (∃ block f, block? raw = some block ∧ Metadata.ofBlock block = .error f
          ∧ metadata? raw = none ∧ readFault? raw = some f)
      ∨ ∃ block m, block? raw = some block ∧ Metadata.ofBlock block = .ok m
          ∧ metadata? raw = some m ∧ readFault? raw = none := by
  unfold metadata? readFault?
  cases h_block : block? raw with
  | none => exact .inl ⟨rfl, rfl, rfl⟩
  | some block =>
    cases h_read : Metadata.ofBlock block with
    | error f => exact .inr (.inl ⟨block, f, rfl, h_read, by simp [h_read, Except.toOption]⟩)
    | ok m => exact .inr (.inr ⟨block, m, rfl, h_read, by simp [h_read, Except.toOption]⟩)

/-- A fault of reading the block is that of a text in it. -/
theorem ofBlock_error {block : Entries} {f : Fault} (hf : Metadata.ofBlock block = .error f) :
    ∃ e ∈ block, e.2.fieldText = .error f := by
  obtain ⟨v, hv, h_text⟩ := (Metadata.ofBlock_error_iff block f).mp hf
  obtain ⟨e, he, rfl⟩ := Metadata.exists_mem_of_scannedIn hv
  exact ⟨e, he, h_text⟩

theorem ReadsSafely.contained {raw : Value} (hr : ReadsSafely raw) {f : Fault}
    (hf : readFault? raw = some f) : f.contained := by
  rcases block_cases raw with ⟨-, -, h⟩ | ⟨block, g, h_block, h_read, -, h⟩ | ⟨_, _, -, -, -, h⟩
  · rw [h] at hf
    cases hf
  · rw [h] at hf
    obtain rfl := Option.some.inj hf
    obtain ⟨e, he, h_text⟩ := ofBlock_error h_read
    exact hr block h_block e he g h_text
  · rw [h] at hf
    cases hf

/-- For a schema whose name is a text the identifier is that of the metadata with the name in
place of a content type that is not set. -/
theorem identifierFor_text (name : String) (m : Metadata) :
    identifierFor (.text name) m = .ok (.text (m.forSchema name).identifier) := by
  -- the general definition is asked only where the name stands in for the content type
  unfold identifierFor Metadata.forSchema
  by_cases h_type : m.contentType.isEmpty
  · rw [if_pos h_type, if_pos h_type]
    exact Value.identifier_text { m with contentType := name }
  · rw [if_neg h_type, if_neg h_type]

/-! ### The handler's effects -/

theorem docName_eq (raw : Value) :
    docName raw = match readFault? raw with
      | some f => .error f
      | none => .ok (docIdentifier? raw) := by
  unfold docName docIdentifier?
  rcases block_cases raw with ⟨h_block, h_meta, h⟩ | ⟨block, f, h_block, h_read, h_meta, h⟩
    | ⟨block, m, h_block, h_read, h_meta, h⟩
  · rw [h_block, h_meta, h]
    rfl
  · simp only [h_block, h_read, h]
  · simp only [h_block, h_read, h_meta, h, Option.map_some, Option.filter]
    by_cases h_empty : m.contentType.isEmpty || m.identifier.isEmpty <;> simp [h_empty]

theorem schemaIdentifier_text (name : String) (raw : Value) :
    schemaIdentifier (.text name) raw = match readFault? raw with
      | some f => .error f
      | none => .ok ((identifier? name raw).map .text) := by
  unfold schemaIdentifier identifier?
  rcases block_cases raw with ⟨h_block, h_meta, h⟩ | ⟨block, f, h_block, h_read, h_meta, h⟩
    | ⟨block, m, h_block, h_read, h_meta, h⟩
  · rw [h_block, h_meta, h]
    rfl
  · simp only [h_block, h_read, h]
    rfl
  · simp only [h_block, h_read, h_meta, h, identifierFor_text, Option.map_some, Option.filter]
    by_cases h_empty : (m.forSchema name).identifier.isEmpty <;>
      simp [h_empty, Value.truthy, bind, Except.bind, pure, Except.pure]

/-- What the handler makes of a context in a call for a document. -/
def updateDoc (raw : Value) (c : Context) : Context :=
  match docIdentifier? raw with
  | none => c
  | some (name, resolved) => c.record name resolved

/-- What it makes of a context in a call for the schema called `name`. -/
def updateSchema (name : String) (raw : Value) (c : Context) : Context :=
  match identifier? name raw with
  | none => c
  | some resolved => { c.record name resolved with schemaName := .text resolved }

/-- The handler's reaction to a call is an update of the context, whatever the session, up to a
fault that does not depend on the session either. -/
structure Updates (call : Call) (update : Context → Context) (fault? : Option Fault) : Prop where
  /-- The effects amount to the update. -/
  perform : ∀ (s : Session) (c : Context), s.context = some c →
    s.performAll (react call (some c)) = ({ s with context := some (update c) }, fault?)
  /-- Updating twice is updating once. -/
  idem : ∀ c, update (update c) = update c

theorem performAll_fail (s : Session) (f : Fault) : s.performAll [.fail f] = (s, some f) := rfl

theorem session_eta {s : Session} {c : Context} (hc : s.context = some c) :
    { s with context := some c } = s := by
  rw [← hc]

/-- The block of a document that cannot be read names nothing. -/
theorem identifiers_of_readFault {raw : Value} {f : Fault} (hf : readFault? raw = some f) :
    docIdentifier? raw = none ∧ ∀ name, identifier? name raw = none := by
  unfold docIdentifier? identifier?
  rcases block_cases raw with ⟨-, -, h⟩ | ⟨-, -, -, -, h_meta, -⟩ | ⟨-, -, -, -, -, h⟩
  · rw [h] at hf
    cases hf
  · rw [h_meta]
    exact ⟨rfl, fun _ => rfl⟩
  · rw [h] at hf
    cases hf

theorem updates_doc (raw : Value) : Updates (.doc raw) (updateDoc raw) (readFault? raw) where
  perform s c hc := by
    unfold react updateDoc
    dsimp only
    rw [docName_eq]
    cases h_fault : readFault? raw with
    | some f =>
      -- no metadata, no identifier, and the context stays
      rw [(identifiers_of_readFault h_fault).1]
      dsimp only
      rw [performAll_fail, session_eta hc]
    | none =>
      cases docIdentifier? raw with
      | none =>
        dsimp only
        rw [session_eta hc]
        rfl
      | some r =>
        dsimp only
        unfold Session.performAll Session.perform
        rw [hc]
        rfl
  idem c := by
    unfold updateDoc
    cases docIdentifier? raw with
    | none => rfl
    | some r => exact c.record_record_self r.1 r.2

theorem updates_schema (name : String) (raw : Value) :
    Updates (.schema (.text name) raw) (updateSchema name raw) (readFault? raw) where
  perform s c hc := by
    unfold react updateSchema
    dsimp only
    rw [schemaIdentifier_text]
    cases h_fault : readFault? raw with
    | some f =>
      rw [(identifiers_of_readFault h_fault).2 name]
      dsimp only
      rw [performAll_fail, session_eta hc]
    | none =>
      cases identifier? name raw with
      | none =>
        rw [session_eta hc]
        rfl
      | some r =>
        rw [Option.map_some]
        unfold Session.performAll Session.perform
        rw [hc]
        rfl
  idem c := by
    unfold updateSchema
    cases identifier? name raw with
    | none => rfl
    | some r =>
      -- the current name does not matter to the record
      change { (c.record name r).record name r with schemaName := .text r } = _
      rw [c.record_record_self name r]

end Cms

namespace Session

open Cms

/-! ### Passes of such handlers -/

section Updates

variable {call : Call} {update : Context → Context} {fault? : Option Fault}
  (hu : Updates call update fault?) {s : Session} {c : Context} (hc : s.context = some c)

include hu hc

theorem reaction_of_updates {h : Handler} (hh : h.IsCms) :
    s.reaction h call = ({ s with context := some (update c) }, fault?) := by
  unfold reaction
  rw [hh.react_eq, hc]
  exact hu.perform s c hc

theorem endingOf_of_updates {h : Handler} (hh : h.IsCms) :
    s.endingOf h call = .ofFault fault? := by
  unfold endingOf
  rw [reaction_of_updates hu hc hh]

/-- One call updates the context, and leaves the handlers as they are. -/
theorem afterCall_of_updates {h : Handler} (hh : h.IsCms) :
    (s.afterCall h call).context = some (update c)
      ∧ (s.afterCall h call).handlers = s.handlers := by
  refine ⟨?_, ?_⟩
  · rw [afterCall_context, reaction_of_updates hu hc hh]
  · unfold handlers activeConfig
    rw [afterCall_registry, afterCall_config, reaction_of_updates hu hc hh]

/-- **Many calls are one.** Any positive number of calls updates the context once; no call at all
does so if there is nothing to update. -/
theorem afterCalls_of_updates {hs : List Handler} (hh : ∀ h ∈ hs, h.IsCms)
    (h_some : hs ≠ [] ∨ update c = c) :
    (s.afterCalls call hs).context = some (update c)
      ∧ (s.afterCalls call hs).handlers = s.handlers := by
  induction hs generalizing s c with
  | nil =>
    rw [h_some.resolve_left (not_not_intro rfl)]
    exact ⟨hc, rfl⟩
  | cons h hs ih =>
    obtain ⟨h_context, h_handlers⟩ := afterCall_of_updates hu hc (hh h List.mem_cons_self)
    -- from the second call on there is nothing to update
    obtain ⟨ih_context, ih_handlers⟩ :=
      ih h_context (fun g hg => hh g (List.mem_cons_of_mem _ hg)) (.inr (hu.idem c))
    rw [hu.idem] at ih_context
    exact ⟨ih_context, ih_handlers.trans h_handlers⟩

/-- A pass of such handlers returns unless reading the block demands the end of the run. -/
theorem pass_none_of_updates {hs : List Handler} (hh : ∀ h ∈ hs, h.IsCms)
    (hn : ∀ h ∈ hs, h.Nameable) (h_fault : ∀ f, fault? = some f → f.contained) :
    (s.pass call hs).2 = none := by
  cases pass_end hn s call with
  | through _ h_pass => rw [h_pass]
  | @aborted done h rest f h_split h_abort _ =>
    -- whichever call it is, its ending is that of reading the block
    exfalso
    subst h_split
    have h_cms : h.IsCms := hh h (List.mem_append_right _ List.mem_cons_self)
    obtain ⟨c', hc'⟩ : ∃ c', (s.afterCalls call done).context = some c' := by
      refine Option.isSome_iff_exists.mp ?_
      rw [afterCalls_context_isSome, hc]
      rfl
    rw [endingOf_of_updates hu hc' h_cms] at h_abort
    cases hf : fault? with
    | none =>
      rw [hf] at h_abort
      cases h_abort
    | some g =>
      rw [hf, Ending.ofFault, if_pos (h_fault g hf)] at h_abort
      cases h_abort
  | @stuck done h rest f h_split h_missing _ =>
    -- the shipped handler has both methods
    exfalso
    subst h_split
    have h_cms : h.IsCms := hh h (List.mem_append_right _ List.mem_cons_self)
    have h_answers : h.missing call.scope = none := h_cms.complete call.scope
    rw [h_answers] at h_missing
    cases h_missing

end Updates

end Session

end SchemaNaming
