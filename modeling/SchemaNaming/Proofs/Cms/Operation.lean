import SchemaNaming.Proofs.Cms.Recording
import SchemaNaming.Proofs.Dispatch.Effects

/-!
# Operations as changes

If all enabled handlers are ones for `x-cms` blocks, what an operation makes of the context and what
it answers depend on the handlers and the document only, and not on the context. This module says
so however the operation ends, and whether or not the handlers' names have texts: a fault that gets
out of a call ends an operation half-way, but it does so at the same place whatever the context.

* `Change` — what an operation makes of a context: names recorded, and perhaps a current name;
* `Change.on_append` — changes one after another are one change;
* `Change.on_self` — a change that is made twice is made once;
* `Cms.walkOutcome`, `Cms.operationOutcome` — the change and the answer of an operation;
* `Session.applyComponents_outcome` — they are what the operation does.

The handlers themselves stay as they are throughout (`Session.host_pass`), since such handlers
neither register nor edit anything.
-/

namespace SchemaNaming

/-- What an operation makes of a context. -/
structure Change where
  /-- The names it records, one after another. -/
  records : List (String × String) := []
  /-- The current name it leaves, if it sets one. -/
  current? : Option String := none

namespace Change

def on (x : Change) (c : Context) : Context :=
  { c.recordAll x.records with schemaName := (x.current?.map Value.text).getD c.schemaName }

/-- One change after another. -/
def append (x y : Change) : Change := ⟨x.records ++ y.records, y.current?.or x.current?⟩

instance : Append Change := ⟨append⟩

theorem on_append (x y : Change) (c : Context) : (x ++ y).on c = y.on (x.on c) := by
  change (append x y).on c = y.on (x.on c)
  unfold append on
  rw [(c.recordAll x.records).recordAll_schemaName _ y.records, Context.recordAll_append]
  cases y.current? <;> rfl

/-- A change has no access to what is the caller's. -/
theorem on_doc (x : Change) (c : Context) : (x.on c).doc = c.doc :=
  c.recordAll_doc x.records

theorem on_caller (x : Change) (c : Context) : (x.on c).caller = c.caller :=
  c.recordAll_caller x.records

/-- **Twice is once.** -/
theorem on_self (x : Change) (c : Context) : x.on (x.on c) = x.on c := by
  unfold on
  rw [(c.recordAll x.records).recordAll_schemaName _ x.records, c.recordAll_recordAll]
  cases x.current? <;> rfl

end Change

namespace Handler

/-- The fault that gets out of a call whose effects failed with the given fault, or did not fail. It
is a fault that is not contained, or else that of a name that is needed for the books and has no
text. -/
def escaping? (h : Handler) : Option Fault → Option Fault
  | none =>
    match labelOf h.name with
    | .ok _ => none
    | .error f => some f
  | some f =>
    if f.contained then
      match h.name.generalText, labelOf h.name with
      | .ok _, .ok _ => none
      | .error f, _ => some f
      | _, .error f => some f
    else some f

/-- From a handler whose name has a text nothing gets out but faults that are not contained. -/
theorem escaping?_eq_none {h : Handler} (hn : h.Nameable) {fault? : Option Fault}
    (h_fault : ∀ f, fault? = some f → f.contained) : h.escaping? fault? = none := by
  unfold escaping?
  cases fault? with
  | none => simp only [hn.labelOf_eq]
  | some f => simp only [h_fault f rfl, if_true, hn.labelOf_eq, hn.generalText_eq]

end Handler

/-- The part of a session that handlers for blocks have no access to. -/
structure Host where
  registry : Registry
  config : Option RunConfig
  schemas : Option SchemaTable

namespace Session

open Cms

theorem invoke_snd (s : Session) (h : Handler) (call : Call) :
    (s.invoke h call).2 = h.escaping? (s.reaction h call).2 := by
  unfold invoke reaction Handler.escaping?
  dsimp only
  rcases s.performAll (h.react (s.callsOf h.serial) call s.context) with ⟨t, _ | f⟩
  · dsimp only
    cases labelOf h.name <;> rfl
  · dsimp only
    by_cases hf : f.contained
    · rw [if_pos hf, if_pos hf]
      cases h.name.generalText <;> cases labelOf h.name <;> rfl
    · rw [if_neg hf, if_neg hf]

/-! ### What such handlers leave alone -/

def host (s : Session) : Host := ⟨s.registry, s.config, s.schemas⟩

theorem handlers_of_host {s t : Session} (h : t.host = s.host) : t.handlers = s.handlers := by
  obtain ⟨h_registry, h_config, -⟩ := Host.mk.inj h
  unfold handlers activeConfig
  rw [h_registry, h_config]

theorem table_of_host {s t : Session} (h : t.host = s.host) : t.table = s.table := by
  obtain ⟨-, -, h_schemas⟩ := Host.mk.inj h
  unfold table
  rw [h_schemas]

/-- A call of a handler for blocks writes to the context and to the books, and nowhere else. -/
theorem host_invoke {h : Handler} (hh : h.IsCms) (s : Session) (call : Call) :
    (s.invoke h call).1.host = s.host := by
  have h_always : h.Always fun e => ∀ t : Session, (t.perform e).1.host = t.host := by
    refine hh.always (fun name resolved t => ?_) (fun name t => ?_) fun f t => rfl
    · unfold perform
      cases t.context <;> rfl
    · unfold perform
      cases t.context <;> rfl
  cases h_always with
  | intro effects _ =>
    rw [invoke_view host (fun _ _ => rfl) (fun _ _ => rfl) (fun _ _ _ _ => rfl)]
    exact performAll_preserves_of (P := fun t => t.host = s.host)
      (fun e he t ht => (effects _ _ _ e he t).trans ht) rfl

theorem host_pass {hs : List Handler} (hh : ∀ h ∈ hs, h.IsCms) (s : Session) (call : Call) :
    (s.pass call hs).1.host = s.host := by
  induction hs generalizing s with
  | nil => rfl
  | cons h hs ih =>
    have h_cms : h.IsCms := hh h List.mem_cons_self
    have h_first := host_invoke h_cms s call
    rw [pass, attempt_of_answers (h_cms.complete call.scope)]
    rcases h_invoke : s.invoke h call with ⟨t, _ | f⟩
    · rw [h_invoke] at h_first
      exact (ih (fun g hg => hh g (List.mem_cons_of_mem _ hg)) t).trans h_first
    · rwa [h_invoke] at h_first

theorem handlers_applySchema {s : Session} (h_cms : ∀ h ∈ s.handlers, h.IsCms)
    (name body : Value) : (s.applySchema name body).1.handlers = s.handlers :=
  handlers_of_host (host_pass h_cms s (.schema name body))

/-! ### Passes -/

/-- **A pass**, however it ends. Any positive number of calls updates the context once; the first
fault that gets out of a call gets out of the pass. -/
theorem pass_outcome {call : Call} {update : Context → Context} {fault? : Option Fault}
    (hu : Updates call update fault?) {hs : List Handler} (hh : ∀ h ∈ hs, h.IsCms) {s : Session}
    {c : Context} (hc : s.context = some c) :
    (s.pass call hs).1.context = some (if hs = [] then c else update c)
      ∧ (s.pass call hs).2 = hs.findSome? fun h => h.escaping? fault? := by
  induction hs generalizing s c with
  | nil => exact ⟨hc, rfl⟩
  | cons h hs ih =>
    have h_cms : h.IsCms := hh h List.mem_cons_self
    have h_reaction := reaction_of_updates hu hc h_cms
    have h_context : (s.invoke h call).1.context = some (update c) := by
      rw [invoke_view context (fun _ _ => rfl) (fun _ _ => rfl) (fun _ _ _ _ => rfl), h_reaction]
    have h_fault : (s.invoke h call).2 = h.escaping? fault? := by
      rw [invoke_snd, h_reaction]
    rw [if_neg (List.cons_ne_nil h hs), List.findSome?_cons, ← h_fault, pass,
      attempt_of_answers (h_cms.complete call.scope)]
    rcases h_invoke : s.invoke h call with ⟨t, _ | f⟩
    · -- from the second call on there is nothing to update
      rw [h_invoke] at h_context
      obtain ⟨ih_context, ih_fault⟩ := ih (fun g hg => hh g (List.mem_cons_of_mem _ hg)) h_context
      refine ⟨?_, ih_fault⟩
      rw [ih_context, hu.idem, ite_self]
    · rw [h_invoke] at h_context
      exact ⟨h_context, rfl⟩

end Session

namespace Cms

variable (hs : List Handler)

/-- The fault that gets out of the pass for a document or schema, if one does. -/
def passFault? (raw : Value) : Option Fault :=
  hs.findSome? fun h => h.escaping? (readFault? raw)

def docChange (raw : Value) : Change :=
  if hs = [] then {} else ⟨(docIdentifier? raw).toList, none⟩

def schemaChange (e : String × Value) : Change :=
  if hs = [] then {} else ⟨recordsOf e, identifier? e.1 e.2⟩

/-- What a walk makes of the context at a schema. First its name becomes the current one. -/
def turnChange (e : String × Value) : Change := ⟨[], some e.1⟩ ++ schemaChange hs e

/-- The name that a schema goes by. -/
def goesBy (e : String × Value) : String := if hs = [] then e.1 else nameOf e.1 e.2

/-- The change that a walk makes, and its answer, `names` being the names so far. A fault that gets
out of a pass ends it. -/
def walkOutcome (names : Entries) : List (String × Value) → Change × Except Fault Entries
  | [] => ({}, .ok names)
  | e :: ks =>
    if e.2.isMap then
      match passFault? hs e.2 with
      | some f => (turnChange hs e, .error f)
      | none =>
        let rest := walkOutcome (names.set (.text e.1) (.text (goesBy hs e))) ks
        (turnChange hs e ++ rest.1, rest.2)
    else walkOutcome names ks

/-- The change that an operation on a document and its schemas `ks` makes, and its answer. -/
def operationOutcome (doc : Value) (ks : List (String × Value)) : Change × Except Fault Entries :=
  match passFault? hs doc with
  | some f => (docChange hs doc, .error f)
  | none =>
    let rest := walkOutcome hs [] ks
    (docChange hs doc ++ rest.1, rest.2)

variable {hs}

theorem docChange_on (raw : Value) (c : Context) :
    (docChange hs raw).on c = if hs = [] then c else updateDoc raw c := by
  unfold docChange
  split
  · rfl
  · unfold updateDoc
    cases docIdentifier? raw <;> rfl

theorem schemaChange_on (e : String × Value) (c : Context) :
    (schemaChange hs e).on c = if hs = [] then c else updateSchema e.1 e.2 c := by
  unfold schemaChange
  split
  · rfl
  · unfold updateSchema recordsOf
    cases identifier? e.1 e.2 <;> rfl

theorem turnChange_on (e : String × Value) (c : Context) :
    (turnChange hs e).on c = (schemaChange hs e).on { c with schemaName := .text e.1 } :=
  Change.on_append ⟨[], some e.1⟩ (schemaChange hs e) c

theorem turnChange_schemaName (e : String × Value) (c : Context) :
    ((turnChange hs e).on c).schemaName = .text (goesBy hs e) := by
  rw [turnChange_on]
  unfold schemaChange goesBy nameOf
  split
  · rfl
  · cases identifier? e.1 e.2 <;> rfl

/-! ### Operations that return -/

theorem passFault?_eq_none (hn : ∀ h ∈ hs, h.Nameable) {raw : Value} (hr : ReadsSafely raw) :
    passFault? hs raw = none :=
  List.findSome?_eq_none_iff.mpr fun h hh =>
    Handler.escaping?_eq_none (hn h hh) fun _ hf => hr.contained hf

theorem walkOutcome_returns {ks : List (String × Value)}
    (h_none : ∀ e ∈ ks, passFault? hs e.2 = none) (names : Entries) :
    ∃ names', (walkOutcome hs names ks).2 = .ok names' := by
  induction ks generalizing names with
  | nil => exact ⟨names, rfl⟩
  | cons e ks ih =>
    have ih := ih fun e' he' => h_none e' (List.mem_cons_of_mem _ he')
    rw [walkOutcome]
    split
    · rw [h_none e List.mem_cons_self]
      exact ih _
    · exact ih names

/-- The operation answers with names if no block demands the end of the run, nor a name. -/
theorem operationOutcome_returns (hn : ∀ h ∈ hs, h.Nameable) {doc : Value}
    {ks : List (String × Value)} (h_doc : ReadsSafely doc) (h_reads : ∀ e ∈ ks, ReadsSafely e.2) :
    ∃ names, (operationOutcome hs doc ks).2 = .ok names := by
  unfold operationOutcome
  rw [passFault?_eq_none hn h_doc]
  exact walkOutcome_returns (fun e he => passFault?_eq_none hn (h_reads e he)) []

end Cms

namespace Session

open Cms

section Operation

variable {s : Session} {c : Context} (h_cms : ∀ h ∈ s.handlers, h.IsCms) (hc : s.context = some c)

include h_cms hc

theorem applyDoc_outcome (doc : Value) :
    (s.applyDoc doc).1.context = some ((docChange s.handlers doc).on c)
      ∧ (s.applyDoc doc).2 = passFault? s.handlers doc := by
  rw [docChange_on]
  exact pass_outcome (updates_doc doc) h_cms hc

theorem applySchema_outcome (e : String × Value) :
    (s.applySchema (.text e.1) e.2).1.context = some ((schemaChange s.handlers e).on c)
      ∧ (s.applySchema (.text e.1) e.2).2 = passFault? s.handlers e.2 := by
  rw [schemaChange_on]
  exact pass_outcome (updates_schema e.1 e.2) h_cms hc

/-- The turn of a walk at a schema: its name becomes the current one, and then the handlers are
called. -/
theorem turn_outcome (e : String × Value) :
    ((s.enter (.text e.1)).applySchema (.text e.1) e.2).1.context
        = some ((turnChange s.handlers e).on c)
      ∧ ((s.enter (.text e.1)).applySchema (.text e.1) e.2).2 = passFault? s.handlers e.2
      ∧ ((s.enter (.text e.1)).applySchema (.text e.1) e.2).1.host = s.host := by
  have h_enter : (s.enter (.text e.1)).context = some { c with schemaName := .text e.1 } := by
    unfold enter
    rw [hc]
    rfl
  obtain ⟨h_context, h_fault⟩ := applySchema_outcome (s := s.enter (.text e.1)) h_cms h_enter e
  refine ⟨?_, h_fault, host_pass h_cms (s.enter (.text e.1)) (.schema (.text e.1) e.2)⟩
  rw [h_context, turnChange_on]
  rfl

/-- **The walk** over the schemas that are still to come. -/
theorem walk_outcome {size i : Nat} (h_size : s.table.size = size) {ks : List (String × Value)}
    (h_from : s.table.entriesFrom i = entriesOf ks) (names : Entries) :
    (walk size ks.length i names s).1.context = some ((walkOutcome s.handlers names ks).1.on c)
      ∧ (walk size ks.length i names s).2 = (walkOutcome s.handlers names ks).2
      ∧ (walk size ks.length i names s).1.host = s.host := by
  -- what a turn leaves meets the assumptions again, so they are generalized along
  induction ks generalizing s c i names with
  | nil =>
    rw [List.length_nil, walk_of_none h_size (SchemaTable.next?_eq_none_iff.mpr h_from)]
    exact ⟨hc, rfl, rfl⟩
  | cons e ks ih =>
    obtain ⟨j, h_next, h_rest⟩ := SchemaTable.next?_of_entriesFrom h_from
    by_cases h_map : e.2.isMap
    · obtain ⟨h_context, h_fault, h_host⟩ := turn_outcome h_cms hc e
      rw [List.length_cons, walkOutcome, if_pos h_map, ← h_fault]
      rcases h_pass : (s.enter (.text e.1)).applySchema (.text e.1) e.2 with ⟨t, _ | f⟩
      · -- the turn leaves the host as it is, so that the walk goes on over the same table
        rw [h_pass] at h_context h_host
        have h_table := table_of_host h_host
        have h_handlers := handlers_of_host h_host
        have h_current : t.currentName = .text (goesBy s.handlers e) := by
          rw [← turnChange_schemaName e c, currentName, h_context]
          rfl
        obtain ⟨ih_context, ih_answer, ih_host⟩ := ih (by rwa [h_handlers]) h_context
          (by rwa [h_table]) (by rwa [h_table])
          (names.set (.text e.1) (.text (goesBy s.handlers e)))
        rw [h_handlers] at ih_context ih_answer
        rw [walk_dispatches h_size h_next h_map h_pass, h_current]
        refine ⟨?_, ih_answer, ih_host.trans h_host⟩
        rw [ih_context, ← Change.on_append]
      · rw [h_pass] at h_context h_host
        rw [walk_of_fault h_size h_next h_map h_pass]
        exact ⟨h_context, rfl, h_host⟩
    · -- what is no mapping is passed over
      have h_map' : e.2.isMap = false := Bool.eq_false_iff.mpr h_map
      rw [List.length_cons, walk_ignores h_size h_next h_map', walkOutcome, if_neg h_map]
      exact ih h_cms hc h_size h_rest names

/-- **An operation on a document and its schemas**, however it ends. -/
theorem applyComponents_outcome {doc : Value} {ks : List (String × Value)}
    (h_schemas : (schemasOf? doc).getD [] = entriesOf ks) (hk : (ks.map Prod.fst).Nodup) :
    (s.applyComponents doc).1.context = some ((operationOutcome s.handlers doc ks).1.on c)
      ∧ (s.applyComponents doc).2 = (operationOutcome s.handlers doc ks).2
      ∧ (s.applyComponents doc).1.handlers = s.handlers := by
  have hctx : s.context.isSome := Option.isSome_iff_exists.mpr ⟨c, hc⟩
  obtain ⟨h_context, h_fault⟩ :=
    applyDoc_outcome (s := s.withSchemas (tableOf doc)) h_cms hc doc
  have h_host : (s.docPass doc).1.host = (s.withSchemas (tableOf doc)).host :=
    host_pass h_cms (s.withSchemas (tableOf doc)) (.doc doc)
  change (s.docPass doc).1.context = _ at h_context
  change (s.docPass doc).2 = passFault? s.handlers doc at h_fault
  have h_handlers : (s.docPass doc).1.handlers = s.handlers :=
    handlers_of_host (s := s.withSchemas (tableOf doc)) h_host
  unfold operationOutcome
  cases h_end : passFault? s.handlers doc with
  | some f =>
    rw [applyComponents_of_fault hctx (h_fault.trans h_end)]
    exact ⟨h_context, rfl, h_handlers⟩
  | none =>
    obtain ⟨h_answer, h_view⟩ := applyComponents_of_none hctx (h_fault.trans h_end)
    -- the table holds the schemas of the document, one after another
    have h_from : (s.docPass doc).1.table.entriesFrom 0 = entriesOf ks := by
      rw [table_of_host h_host]
      exact (tableOf_entries (schemasDistinct_of_texts h_schemas hk)).trans h_schemas
    have h_size : (s.docPass doc).1.table.size = ks.length :=
      (congrArg List.length h_from).trans (List.length_map _)
    obtain ⟨h_later, h_names, h_walk_host⟩ := walk_outcome (s := (s.docPass doc).1)
      (by rwa [h_handlers]) h_context h_size h_from []
    have h_walk : s.schemaWalk doc = walk ks.length ks.length 0 [] (s.docPass doc).1 := by
      rw [← h_size]
      rfl
    rw [h_answer, h_view context (fun _ _ => rfl) (fun _ _ => rfl),
      h_view handlers (fun _ _ => rfl) (fun _ _ => rfl), h_walk]
    rw [h_handlers] at h_later h_names
    refine ⟨?_, h_names, (handlers_of_host h_walk_host).trans h_handlers⟩
    rw [h_later, ← Change.on_append]
    rfl

end Operation

end Session

end SchemaNaming
