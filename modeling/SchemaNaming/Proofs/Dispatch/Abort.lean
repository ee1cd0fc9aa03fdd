import SchemaNaming.Proofs.Dispatch.Books
import SchemaNaming.Proofs.Dispatch.Schedule

/-!
# Calls that end an operation

A request to end the run is not contained. The call that makes it is the last one of its operation,
and the operation leaves exactly what its calls did so far.

Which call that is, is said of the schedule. `Session.agenda` has the calls that an operation would
make if nothing ended it, in their order and with their endings, and `Session.FirstAbort` says that
the `n`-th of them is the first that aborts, and that the operation gets that far: for this call and
those before it there is the method. `Session.leftBy n` is what the first `n` calls
leave, one after another, the current name being reset at the start of each schema's pass.

* `Session.pass_of_firstAbort` — a pass stops at the call;
* `Session.walk_of_firstAbort` — so does the walk over the schemas, by induction on the schemas to
  come: either the call is one of the next pass, or that pass is completed;
* `Session.along_enrols` — what is in the registry after an operation was there before, or was
  registered by one of its calls;
* `Session.abort_exact` — the operation as a whole, and the steps after it.

Handlers may do what they like as long as none of the calls before the last one changes the table of
schemas (`Session.Steady`); handlers that never edit schemas are a special case
(`Session.steady_of_tame`).
-/

namespace SchemaNaming

/-- Only the two requests to end the run are not contained. -/
theorem Fault.not_contained_iff (f : Fault) :
    f.contained = false
      ↔ ∃ message, f = .raised .exit message ∨ f = .raised .interrupt message := by
  constructor
  · intro h
    cases f with
    | raised kind message =>
      cases kind with
      | exit => exact ⟨message, .inl rfl⟩
      | interrupt => exact ⟨message, .inr rfl⟩
      | _ => cases h
    | _ => cases h
  · rintro ⟨message, rfl | rfl⟩ <;> rfl

theorem Ending.not_contained_of_aborted {fault? : Option Fault} {f : Fault}
    (h : Ending.ofFault fault? = .aborted f) : f.contained = false := by
  cases fault? with
  | none => cases h
  | some g =>
    unfold ofFault at h
    cases h_contained : g.contained with
    | true =>
      simp only [h_contained, if_true] at h
      cases h
    | false =>
      simp only [h_contained, Bool.false_eq_true, if_false] at h
      rwa [← aborted.inj h]

/-- Every call belongs to a counter, or it aborted. -/
theorem Ending.exists_outcome {ending : Ending} (h : ∀ f, ending ≠ .aborted f) :
    ∃ o, ending.outcome? = some o := by
  cases ending with
  | returned => exact ⟨.ok, rfl⟩
  | failed f => exact ⟨.error, rfl⟩
  | aborted f => exact absurd rfl (h f)

/-- Only a request to end the run aborts a call. -/
theorem Invocation.Genuine.requests_end {i : Invocation} (hi : i.Genuine) {f : Fault}
    (h_ending : i.ending = .aborted f) :
    ∃ message, f = .raised .exit message ∨ f = .raised .interrupt message := by
  obtain ⟨-, s, -, h_ended⟩ := hi
  rw [h_ended] at h_ending
  exact f.not_contained_iff.mp (Ending.not_contained_of_aborted h_ending)

/-- The call registers the handler. -/
def Invocation.Enlists (i : Invocation) (g : Handler) : Prop :=
  ∃ n, Session.Enlisted (i.handler.react n i.call i.context) g

namespace Session

/-! ### The first call that aborts -/

/-- The handlers of the calls have the methods for them. -/
def Answered (is : List Invocation) : Prop := ∀ i ∈ is, i.handler.Answers i.call.scope

/-- The `n`-th of the calls, counted from zero, aborts with the fault, and none of those before it
aborts. All of these calls can be made. -/
structure FirstAbort (log : List Invocation) (n : Nat) (f : Fault) : Prop where
  aborts : log[n]?.map Invocation.ending = some (.aborted f)
  before : NoneAborts (log.take n)
  answered : Answered (log.take (n + 1))

namespace FirstAbort

variable {i : Invocation} {log later : List Invocation} {n : Nat} {f : Fault}

theorem not_nil : ¬ FirstAbort [] n f := fun h => by
  have h_aborts := h.aborts
  rw [List.getElem?_nil] at h_aborts
  cases h_aborts

theorem lt_length (h : FirstAbort log n f) : n < log.length := by
  obtain ⟨i, hi, -⟩ := Option.map_eq_some_iff.mp h.aborts
  exact (List.getElem?_eq_some_iff.mp hi).1

theorem ending_of_zero (h : FirstAbort (i :: log) 0 f) : i.ending = .aborted f :=
  Option.some.inj h.aborts

theorem not_aborts_head (h : FirstAbort (i :: log) (n + 1) f) (g : Fault) :
    i.ending ≠ .aborted g :=
  h.before i List.mem_cons_self g

theorem answers_head (h : FirstAbort (i :: log) n f) : i.handler.Answers i.call.scope :=
  h.answered i List.mem_cons_self

theorem tail (h : FirstAbort (i :: log) (n + 1) f) : FirstAbort log n f where
  aborts := h.aborts
  before j hj := h.before j (List.mem_cons_of_mem i hj)
  answered j hj := h.answered j (List.mem_cons_of_mem i hj)

/-- The call is one of the first calls. -/
theorem left (h : FirstAbort (log ++ later) n f) (hn : n < log.length) : FirstAbort log n f where
  aborts := by
    rw [← h.aborts, List.getElem?_append_left hn]
  before := by
    have h_before := h.before
    rwa [List.take_append_of_le_length (Nat.le_of_lt hn)] at h_before
  answered := by
    have h_answered := h.answered
    rwa [List.take_append_of_le_length hn] at h_answered

/-- The call is one of the later calls. -/
theorem right (h : FirstAbort (log ++ later) n f) (hn : log.length ≤ n) :
    NoneAborts log ∧ Answered log ∧ FirstAbort later (n - log.length) f := by
  have h_before := h.before
  have h_answered := h.answered
  rw [List.take_append, List.take_of_length_le hn] at h_before
  rw [List.take_append, List.take_of_length_le (Nat.le_succ_of_le hn), Nat.sub_add_comm hn]
    at h_answered
  refine ⟨fun i hi => h_before i (List.mem_append_left _ hi),
    fun i hi => h_answered i (List.mem_append_left _ hi), ?_, ?_, ?_⟩
  · rw [← h.aborts, List.getElem?_append_right hn]
  · exact fun i hi => h_before i (List.mem_append_right _ hi)
  · exact fun i hi => h_answered i (List.mem_append_right _ hi)

/-- The calls up to it end with it. -/
theorem exists_last (h : FirstAbort log n f) :
    ∃ last, log.take (n + 1) = log.take n ++ [last] ∧ last.ending = .aborted f := by
  obtain ⟨last, h_last, h_ending⟩ := Option.map_eq_some_iff.mp h.aborts
  refine ⟨last, ?_, h_ending⟩
  rw [List.take_add_one, h_last]
  rfl

end FirstAbort

/-! ### Passes -/

section Pass

variable (s : Session) (call : Call) (hs : List Handler)

theorem passLog_length : (s.passLog call hs).length = hs.length := by
  have h_calls := congrArg List.length (passLog_calls s call hs)
  rwa [List.length_map, List.length_map] at h_calls

theorem passLog_take (n : Nat) : s.passLog call (hs.take n) = (s.passLog call hs).take n := by
  induction hs generalizing s n with
  | nil => rw [List.take_nil, passLog, List.take_nil]
  | cons h hs ih =>
    cases n with
    | zero => rfl
    | succ n => rw [List.take_succ_cons, passLog, passLog, List.take_succ_cons, ih]

end Pass

section Pass

variable {s : Session} {call : Call} {hs : List Handler}

theorem pass_cons_of_not_aborted {h : Handler} (hn : h.Nameable)
    (h_answers : h.Answers call.scope) (h_goes : ∀ f, s.endingOf h call ≠ .aborted f) :
    s.pass call (h :: hs) = (s.afterCall h call).pass call hs := by
  rw [pass, attempt_eq hn h_answers]
  cases h_ending : s.endingOf h call with
  | returned | failed => rfl
  | aborted f => exact absurd h_ending (h_goes f)

/-- **A pass stops at the first call that aborts**, and leaves what the calls up to it did. -/
theorem pass_of_firstAbort (hn : ∀ h ∈ hs, h.Nameable) {n : Nat} {f : Fault}
    (h_abort : FirstAbort (s.passLog call hs) n f) :
    s.pass call hs = (s.afterCalls call (hs.take (n + 1)), some f) := by
  induction hs generalizing s n with
  | nil => exact absurd h_abort FirstAbort.not_nil
  | cons h hs ih =>
    have hh : h.Nameable := hn h List.mem_cons_self
    have h_answers : h.Answers call.scope := h_abort.answers_head
    rw [List.take_succ_cons, afterCalls_cons]
    -- the call at hand aborts, or it returns or fails and the pass goes on behind it
    cases n with
    | zero =>
      have h_ending : s.endingOf h call = .aborted f := h_abort.ending_of_zero
      rw [pass, attempt_eq hh h_answers, h_ending]
      rfl
    | succ n =>
      rw [pass_cons_of_not_aborted hh h_answers h_abort.not_aborts_head]
      exact ih (fun g hg => hn g (List.mem_cons_of_mem h hg)) h_abort.tail

/-- A pass none of whose calls would abort makes all of them, if it can. -/
theorem pass_of_noneAborts (hn : ∀ h ∈ hs, h.Nameable)
    (h_none : NoneAborts (s.passLog call hs)) (h_answered : Answered (s.passLog call hs)) :
    s.pass call hs = (s.afterCalls call hs, none) := by
  induction hs generalizing s with
  | nil => rfl
  | cons h hs ih =>
    rw [pass_cons_of_not_aborted (hn h List.mem_cons_self) (h_answered _ List.mem_cons_self)
      (h_none _ List.mem_cons_self), afterCalls_cons]
    exact ih (fun g hg => hn g (List.mem_cons_of_mem h hg))
      (fun i hi => h_none i (List.mem_cons_of_mem _ hi))
      fun i hi => h_answered i (List.mem_cons_of_mem _ hi)

end Pass

/-! ### Sequences of passes -/

/-- What the first `n` of the calls that a sequence of passes owes leave. Each schema's pass makes
its name the current one before the first call of the pass. -/
def afterFirst (s : Session) (n : Nat) : List Call → Session
  | [] => s
  | call :: calls =>
    if n ≤ s.handlers.length then (s.passStart call).afterCalls call (s.handlers.take n)
    else (s.afterPass call).afterFirst (n - s.handlers.length) calls

/-- None of the first `n` calls changes the table of schemas. -/
def Steady (s : Session) (n : Nat) (calls : List Call) : Prop :=
  ∀ m ≤ n, (s.afterFirst m calls).schemas = s.schemas

section AfterFirst

variable {s : Session} {n : Nat} {call : Call} {calls : List Call}

theorem afterFirst_of_le (hn : n ≤ s.handlers.length) :
    s.afterFirst n (call :: calls) = (s.passStart call).afterCalls call (s.handlers.take n) :=
  if_pos hn

theorem afterFirst_of_lt (hn : s.handlers.length < n) :
    s.afterFirst n (call :: calls)
      = (s.afterPass call).afterFirst (n - s.handlers.length) calls :=
  if_neg (Nat.not_le_of_lt hn)

theorem afterFirst_all :
    s.afterFirst s.handlers.length (call :: calls) = s.afterPass call := by
  rw [afterFirst_of_le (Nat.le_refl _), List.take_length, afterPass]

/-- The first `n` calls are those on record. -/
theorem afterFirst_history (s : Session) (n : Nat) (calls : List Call) :
    (s.afterFirst n calls).history = s.history ++ (s.runLog calls).take n := by
  induction calls generalizing s n with
  | nil => rw [afterFirst, runLog, List.take_nil, List.append_nil]
  | cons call calls ih =>
    have h_length : ((s.passStart call).passLog call s.handlers).length = s.handlers.length :=
      passLog_length _ _ _
    rcases Nat.lt_or_ge s.handlers.length n with hn | hn
    · -- the whole pass is on record, and the first calls of those behind it
      have h_pass : (s.afterPass call).history
          = s.history ++ (s.passStart call).passLog call s.handlers := by
        rw [afterPass, afterCalls_history, passStart_history]
      have h_le : ((s.passStart call).passLog call s.handlers).length ≤ n := by omega
      rw [afterFirst_of_lt hn, ih, h_pass, runLog, List.take_append, List.take_of_length_le h_le,
        h_length, List.append_assoc]
    · -- the first calls are all of this pass
      have h_le : n ≤ ((s.passStart call).passLog call s.handlers).length := by omega
      rw [afterFirst_of_le hn, afterCalls_history, passStart_history, passLog_take, runLog,
        List.take_append_of_le_length h_le]

theorem passStart_schemas (s : Session) (call : Call) :
    (s.passStart call).schemas = s.schemas := by
  cases call <;> rfl

theorem afterFirst_zero_schemas (s : Session) (calls : List Call) :
    (s.afterFirst 0 calls).schemas = s.schemas := by
  cases calls with
  | nil => rfl
  | cons call calls =>
    rw [afterFirst_of_le (Nat.zero_le _), List.take_zero, afterCalls_nil, passStart_schemas]

/-- Past a whole pass the table stays what it was. -/
theorem Steady.afterPass (h : s.Steady n (call :: calls)) (hn : s.handlers.length ≤ n) :
    (s.afterPass call).schemas = s.schemas
      ∧ (s.afterPass call).Steady (n - s.handlers.length) calls := by
  have h_pass : (s.afterPass call).schemas = s.schemas := by
    rw [← h s.handlers.length hn, afterFirst_all]
  refine ⟨h_pass, fun m hm => ?_⟩
  rcases Nat.eq_zero_or_pos m with rfl | h_pos
  · exact afterFirst_zero_schemas _ _
  · -- the `m`-th call from here on is a later one of the whole sequence
    have h_later := h (s.handlers.length + m) (by omega)
    rw [afterFirst_of_lt (by omega), Nat.add_sub_cancel_left] at h_later
    rw [h_later, h_pass]

end AfterFirst

theorem afterFirst_schemas_of_tame {s : Session} (hs : ∀ h ∈ s.handlers, h.Tame) (n : Nat)
    (calls : List Call) : (s.afterFirst n calls).schemas = s.schemas := by
  induction calls generalizing s n with
  | nil => rfl
  | cons call calls ih =>
    rcases Nat.lt_or_ge s.handlers.length n with hn | hn
    · rw [afterFirst_of_lt hn, ih (forall_tame_afterPass hs call), afterPass_schemas hs]
    · -- some of the calls of a pass do as little to the table as all of them
      have h_spares : ∀ h ∈ s.handlers.take n, h.SparesSchemas := by
        intro h hh
        exact (hs h (List.mem_of_mem_take hh)).spares
      have h_calls := afterCalls_withSchemas h_spares (s.passStart call) call
        (s.passStart call).schemas
      rw [withSchemas_self] at h_calls
      rw [afterFirst_of_le hn, h_calls, withSchemas_schemas, passStart_schemas]

/-- Handlers that never edit schemas keep the table as it is. -/
theorem steady_of_tame {s : Session} (hs : ∀ h ∈ s.handlers, h.Tame) (n : Nat)
    (calls : List Call) : s.Steady n calls :=
  fun m _ => afterFirst_schemas_of_tame hs m calls

/-! ### The walk -/

theorem table_of_schemas {s t : Session} (h : t.schemas = s.schemas) : t.table = s.table := by
  unfold table
  rw [h]

/-- **The walk stops at the first call that aborts.** -/
theorem walk_of_firstAbort {s : Session} (hn : ∀ h ∈ s.handlers, h.Nameable) {t : SchemaTable}
    (h_table : s.table = t) {i : Nat} {rest names : Entries} (h_rest : t.entriesFrom i = rest)
    {n : Nat} {f : Fault}
    (h_steady : s.Steady n (schemaCalls rest))
    (h_abort : FirstAbort (s.runLog (schemaCalls rest)) n f) :
    walk t.size rest.length i names s
      = (s.afterFirst (n + 1) (schemaCalls rest), .error f) := by
  induction rest generalizing s i names n with
  | nil => exact absurd h_abort FirstAbort.not_nil
  | cons e rest ih =>
    -- the table stands still, so the entry at hand is the first of those to come
    obtain ⟨j, h_next, h_rest'⟩ := SchemaTable.next?_of_entriesFrom h_rest
    rw [← h_table] at h_next
    have h_size : s.table.size = t.size := by rw [h_table]
    by_cases h_map : e.2.isMap
    · rw [schemaCalls_cons_of_map rest h_map] at h_steady h_abort ⊢
      let call : Call := .schema e.1 e.2
      have h_length : ((s.passStart call).passLog call s.handlers).length = s.handlers.length :=
        passLog_length _ _ _
      rcases Nat.lt_or_ge n s.handlers.length with h_lt | h_ge
      · -- the call is one of this pass
        have h_here : FirstAbort ((s.passStart call).passLog call s.handlers) n f :=
          h_abort.left (by rwa [h_length])
        have h_pass : (s.enter e.1).applySchema e.1 e.2
            = ((s.passStart call).afterCalls call (s.handlers.take (n + 1)), some f) :=
          pass_of_firstAbort hn h_here
        rw [List.length_cons, walk_of_fault h_size h_next h_map h_pass, afterFirst_of_le h_lt]
      · -- the pass is completed, and the call is one of those after it
        obtain ⟨h_none, h_answered, h_later⟩ := h_abort.right (by rwa [h_length])
        rw [h_length] at h_later
        have h_pass : (s.enter e.1).applySchema e.1 e.2 = (s.afterPass call, none) :=
          pass_of_noneAborts hn h_none h_answered
        obtain ⟨h_schemas, h_steady'⟩ := h_steady.afterPass h_ge
        have hn' : ∀ h ∈ (s.afterPass call).handlers, h.Nameable :=
          forall_handlers_afterPass (fun _ hb => hb.nameable) hn call
        have h_table' : (s.afterPass call).table = t := by
          rw [table_of_schemas h_schemas, h_table]
        have h_lt : s.handlers.length < n + 1 := by omega
        have h_sub : n + 1 - s.handlers.length = n - s.handlers.length + 1 := by omega
        rw [List.length_cons, walk_dispatches h_size h_next h_map h_pass, afterFirst_of_lt h_lt,
          h_sub]
        exact ih hn' h_table' h_rest' h_steady' h_later
    · have h_map' : e.2.isMap = false := Bool.eq_false_iff.mpr h_map
      rw [schemaCalls_cons_of_not_map rest h_map'] at h_steady h_abort ⊢
      rw [List.length_cons, walk_ignores h_size h_next h_map']
      exact ih hn h_table h_rest' h_steady h_abort

/-! ### The registry along an operation -/

/-- Between two points of a run the registry has only grown, by what the calls in between
registered. -/
structure Enrols (s t : Session) : Prop where
  history : s.history <+: t.history
  kept : s.registry <+: t.registry
  registered : ∀ g ∈ t.registry, g ∈ s.registry ∨ ∃ i ∈ callsSince s t, i.Enlists g

theorem Enrols.of_eq {s t : Session} (h_history : t.history = s.history)
    (h_registry : t.registry = s.registry) : Enrols s t where
  history := by rw [h_history]
  kept := by rw [h_registry]
  registered g hg := .inl (by rwa [← h_registry])

theorem Enrols.trans {s t u : Session} (hst : Enrols s t) (htu : Enrols t u) : Enrols s u where
  history := hst.history.trans htu.history
  kept := hst.kept.trans htu.kept
  registered := by
    intro g hg
    rw [callsSince_append hst.history htu.history]
    -- a call registered it later, or it was there at the point in between
    rcases htu.registered g hg with h_mid | ⟨i, hi, h_enlists⟩
    · refine (hst.registered g h_mid).imp id ?_
      rintro ⟨i, hi, h_enlists⟩
      exact ⟨i, List.mem_append_left _ hi, h_enlists⟩
    · exact .inr ⟨i, List.mem_append_right _ hi, h_enlists⟩

/-- **What an operation registers**, its calls register. -/
theorem along_enrols : Along Handler.Nameable Enrols where
  nameable := id
  brought _ hb := hb.nameable
  refl _ := .of_eq rfl rfl
  trans := Enrols.trans
  enter _ _ := .of_eq rfl rfl
  withSchemas _ _ := .of_eq rfl rfl
  notify _ _ _ := .of_eq rfl rfl
  call s h call _ := {
    history := by
      rw [afterCall_history]
      exact List.prefix_append _ _
    kept := by
      rw [afterCall_registry]
      exact registry_prefix_performAll s _
    registered := by
      intro g hg
      rw [afterCall_registry] at hg
      refine (mem_registry_performAll hg).imp id fun h_enlisted => ?_
      refine ⟨⟨h, call, s.context, s.endingOf h call⟩, ?_, s.callsOf h.serial, h_enlisted⟩
      rw [callsSince_afterCall]
      exact List.mem_singleton.mpr rfl }

/-! ### Operations -/

/-- The calls that a step would make if nothing ended it, as they would stand on record. -/
def agenda (s : Session) : Step → List Invocation
  | .applyDoc doc => s.passLog (.doc doc) s.handlers
  | .applySchema name body => s.passLog (.schema name body) s.handlers
  | .applyComponents doc => (s.withSchemas (tableOf doc)).runLog (callsFor doc)
  | _ => []

/-- What the first `n` of these calls leave. The table of schemas is forgotten with the operation
that walks over it. -/
def leftBy (s : Session) (n : Nat) : Step → Session
  | .applyDoc doc => s.afterCalls (.doc doc) (s.handlers.take n)
  | .applySchema name body => s.afterCalls (.schema name body) (s.handlers.take n)
  | .applyComponents doc =>
    ((s.withSchemas (tableOf doc)).afterFirst n (callsFor doc)).withSchemas none
  | _ => s

/-- The schemas that the step walks over, if it does, have distinct keys, as every mapping, and none
of the first `n` calls edits them. -/
def Unedited (s : Session) (n : Nat) : Step → Prop
  | .applyComponents doc =>
    SchemasDistinct doc ∧ (s.withSchemas (tableOf doc)).Steady n (callsFor doc)
  | _ => True

/-- Without schemas there are no calls but those for the document. -/
theorem tableOf_isSome_of_firstAbort {s : Session} {doc : Value} {n : Nat} {f : Fault}
    (h_abort : FirstAbort (s.runLog (schemaCalls ((schemasOf? doc).getD []))) n f) :
    (tableOf doc).isSome := by
  cases h_es : schemasOf? doc with
  | none =>
    rw [h_es] at h_abort
    exact absurd h_abort FirstAbort.not_nil
  | some es =>
    unfold tableOf
    rw [h_es]
    rfl

section Operation

variable {s : Session} (hn : ∀ h ∈ s.handlers, h.Nameable) {n : Nat} {f : Fault}

include hn

/-- The walk of an operation, from what the pass for the document left. -/
theorem schemaWalk_of_firstAbort {doc : Value} (hd : SchemasDistinct doc) {u : Session}
    (h_doc : s.docPass doc = (u, none)) (h_schemas : u.schemas = tableOf doc)
    (h_steady : u.Steady n (schemaCalls ((schemasOf? doc).getD [])))
    (h_abort : FirstAbort (u.runLog (schemaCalls ((schemasOf? doc).getD []))) n f) :
    s.schemaWalk doc
      = (u.afterFirst (n + 1) (schemaCalls ((schemasOf? doc).getD [])), .error f) := by
  have h_rest : u.table.entriesFrom 0 = (schemasOf? doc).getD [] := by
    unfold table
    rw [h_schemas]
    exact tableOf_entries hd
  have hn' : ∀ h ∈ u.handlers, h.Nameable := by
    have h_left : (s.docPass doc).1 = u := by rw [h_doc]
    rw [← h_left]
    exact along_enrols.forall_handlers (s := s.withSchemas (tableOf doc)) hn hn (.doc doc)
  have h_walk : s.schemaWalk doc
      = walk u.table.size ((schemasOf? doc).getD []).length 0 [] u := by
    rw [← h_rest]
    unfold schemaWalk walkStart
    rw [h_doc]
    rfl
  rw [h_walk]
  exact walk_of_firstAbort hn' rfl h_rest h_steady h_abort

/-- **An operation on a document and its schemas** ends with the first call that aborts, whichever
pass that is part of. -/
theorem applyComponents_of_firstAbort (hctx : s.context.isSome) {doc : Value}
    (hd : SchemasDistinct doc) (h_steady : (s.withSchemas (tableOf doc)).Steady n (callsFor doc))
    (h_abort : FirstAbort ((s.withSchemas (tableOf doc)).runLog (callsFor doc)) n f) :
    s.applyComponents doc
      = (((s.withSchemas (tableOf doc)).afterFirst (n + 1) (callsFor doc)).withSchemas none,
          .error f) := by
  have h_length : ((s.withSchemas (tableOf doc)).passLog (.doc doc) s.handlers).length
      = s.handlers.length := passLog_length _ _ _
  rcases Nat.lt_or_ge n s.handlers.length with h_lt | h_ge
  · -- the pass for the document stops
    have h_here : FirstAbort ((s.withSchemas (tableOf doc)).passLog (.doc doc) s.handlers) n f :=
      h_abort.left (Nat.lt_of_lt_of_eq h_lt h_length.symm)
    have h_pass : s.docPass doc
        = ((s.withSchemas (tableOf doc)).afterCalls (.doc doc) (s.handlers.take (n + 1)), some f) :=
      pass_of_firstAbort hn h_here
    have h_first : (s.withSchemas (tableOf doc)).afterFirst (n + 1) (callsFor doc)
        = (s.withSchemas (tableOf doc)).afterCalls (.doc doc) (s.handlers.take (n + 1)) :=
      afterFirst_of_le h_lt
    rw [applyComponents_of_fault hctx (congrArg Prod.snd h_pass), h_pass, h_first]
  · -- the walk over the schemas stops
    obtain ⟨h_none, h_answered, h_later⟩ :=
      h_abort.right (Nat.le_trans (Nat.le_of_eq h_length) h_ge)
    have h_doc : s.docPass doc = ((s.withSchemas (tableOf doc)).afterPass (.doc doc), none) :=
      pass_of_noneAborts hn h_none h_answered
    obtain ⟨h_schemas, h_steady'⟩ := h_steady.afterPass h_ge
    have h_later' : FirstAbort (((s.withSchemas (tableOf doc)).afterPass (.doc doc)).runLog
        (schemaCalls ((schemasOf? doc).getD []))) (n - s.handlers.length) f := by
      rwa [← h_length]
    have h_walk := schemaWalk_of_firstAbort hn hd h_doc h_schemas h_steady' h_later'
    -- the first calls of the operation are the pass for the document and those of the walk
    have h_first : (s.withSchemas (tableOf doc)).afterFirst (n + 1) (callsFor doc)
        = ((s.withSchemas (tableOf doc)).afterPass (.doc doc)).afterFirst
            (n - s.handlers.length + 1) (schemaCalls ((schemasOf? doc).getD [])) := by
      rw [← Nat.sub_add_comm h_ge]
      exact afterFirst_of_lt (Nat.lt_succ_of_le h_ge)
    have h_some : (s.docPass doc).1.schemas.isSome = true := by
      rw [h_doc, h_schemas]
      exact tableOf_isSome_of_firstAbort h_later'
    rw [applyComponents_eq hctx (congrArg Prod.snd h_doc), h_walk, h_some, h_first]
    rfl

/-- **A step ends with the first of its calls that aborts**, and leaves what these did so far. -/
theorem step_of_firstAbort (hctx : s.context.isSome) {step : Step} (h_unedited : s.Unedited n step)
    (h_abort : FirstAbort (s.agenda step) n f) :
    s.step step = (s.leftBy (n + 1) step, .error f) := by
  cases step with
  | applyDoc doc =>
    have h_pass : s.applyDoc doc
        = (s.afterCalls (.doc doc) (s.handlers.take (n + 1)), some f) :=
      pass_of_firstAbort hn h_abort
    rw [Session.step, h_pass]
    rfl
  | applySchema name body =>
    have h_pass : s.applySchema name body
        = (s.afterCalls (.schema name body) (s.handlers.take (n + 1)), some f) :=
      pass_of_firstAbort hn h_abort
    rw [Session.step, h_pass]
    rfl
  | applyComponents doc =>
    rw [Session.step, applyComponents_of_firstAbort hn hctx h_unedited.1 h_unedited.2 h_abort]
    rfl
  | _ => exact absurd h_abort FirstAbort.not_nil

end Operation

/-- The first calls of a step are those on record. -/
theorem leftBy_history (s : Session) (m : Nat) (step : Step) :
    (s.leftBy m step).history = s.history ++ (s.agenda step).take m := by
  cases step with
  | applyDoc doc =>
    have h_left := afterCalls_history s (.doc doc) (s.handlers.take m)
    rwa [passLog_take] at h_left
  | applySchema name body =>
    have h_left := afterCalls_history s (.schema name body) (s.handlers.take m)
    rwa [passLog_take] at h_left
  | applyComponents doc =>
    -- forgetting the table does not change what is on record
    exact afterFirst_history (s.withSchemas (tableOf doc)) m (callsFor doc)
  | _ =>
    have h_none : s.history ++ List.take m [] = s.history := by
      rw [List.take_nil, List.append_nil]
    exact h_none.symm

/-- What holds along operations holds along a step with calls to make. -/
theorem Along.step {Q : Handler → Prop} {R : Session → Session → Prop} (hR : Along Q R)
    {s : Session} (hs : ∀ h ∈ s.handlers, Q h) {step : Step} (h_calls : s.agenda step ≠ []) :
    R s (s.step step).1 := by
  cases step with
  | applyDoc doc =>
    rw [step_applyDoc]
    exact hR.applyDoc hs doc
  | applySchema name body =>
    rw [step_applySchema]
    exact hR.applySchema hs name body
  | applyComponents doc =>
    rw [step_applyComponents]
    exact hR.applyComponents hs doc
  | _ => exact absurd rfl h_calls

/-- The session was cut short after the `n`-th of the calls that were on its agenda. -/
structure CutShort (s t : Session) (agenda : List Invocation) (n : Nat) : Prop where
  /-- This call and those before it were made, and no other. -/
  calls : callsSince s t = agenda.take (n + 1)
  /-- Each of those before it belongs to a counter. -/
  counted : ∀ i ∈ agenda.take n, ∃ o, i.ending.outcome? = some o
  /-- The counters have grown by these, -/
  counts : ∀ k, t.tally.count k = s.tally.count k + (agenda.take n).countP (·.countsFor k)
  /-- and by no other call. -/
  total : t.tally.total = s.tally.total + n
  /-- The handlers that were there keep their places. -/
  kept : s.registry <+: t.registry
  /-- The others were registered by the calls. -/
  registered : ∀ g ∈ t.registry, g ∈ s.registry ∨ ∃ i ∈ agenda.take (n + 1), i.Enlists g

/-- What was booked and enrolled up to the call that aborts. -/
theorem FirstAbort.cutShort {s t : Session} {agenda : List Invocation} {n : Nat} {f : Fault}
    (h_abort : FirstAbort agenda n f) (h_calls : callsSince s t = agenda.take (n + 1))
    (h_booked : Booked s t) (h_enrols : Enrols s t) : CutShort s t agenda n := by
  obtain ⟨last, h_take, h_last⟩ := h_abort.exists_last
  have h_counted : ∀ i ∈ agenda.take n, ∃ o, i.ending.outcome? = some o := fun i hi =>
    Ending.exists_outcome (h_abort.before i hi)
  -- the last call belongs to no counter
  have h_none : last.ending.outcome? = none := by
    rw [h_last]
    rfl
  exact {
    calls := h_calls
    counted := h_counted
    counts := by
      intro k
      have h_uncounted : last.countsFor k = false := by
        unfold Invocation.countsFor
        rw [h_none]
        exact Bool.and_false _
      rw [h_booked.counts k, h_calls, h_take, List.countP_append, List.countP_singleton,
        h_uncounted]
      rfl
    total := by
      have h_all : ∀ i ∈ agenda.take n, i.counted = true := by
        intro i hi
        obtain ⟨o, ho⟩ := h_counted i hi
        unfold Invocation.counted
        rw [ho]
        rfl
      have h_uncounted : last.counted = false := by
        unfold Invocation.counted
        rw [h_none]
        rfl
      rw [h_booked.total, h_calls, h_take, List.countP_append, List.countP_eq_length.mpr h_all,
        List.countP_singleton, h_uncounted, List.length_take_of_le h_abort.lt_length.le]
      rfl
    kept := h_enrols.kept
    registered := by
      rw [← h_calls]
      exact h_enrols.registered }

/-- **Aborts are exact.** Of the calls that an operation would make with a context and named
handlers, let the `n`-th be the first that aborts, and none of those before it edit the schemas or
lack its method.
Its fault, which is a request to end the run, gets out of the operation. The session is left as the
calls so far and the starts of their passes left it: no call is made after it, those before it are
counted, and the registry has grown only by what they registered. Whatever comes next starts from
there. -/
theorem abort_exact {s : Session} (hctx : s.context.isSome) (hn : ∀ h ∈ s.handlers, h.Named)
    {step : Step} {n : Nat} {f : Fault} (h_unedited : s.Unedited n step)
    (h_abort : FirstAbort (s.agenda step) n f) :
    (∃ message, f = .raised .exit message ∨ f = .raised .interrupt message)
      ∧ s.step step = (s.leftBy (n + 1) step, .error f)
      ∧ CutShort s (s.leftBy (n + 1) step) (s.agenda step) n
      ∧ ∀ steps, s.run (step :: steps)
          = (s.leftBy (n + 1) step, .error f) :: (s.leftBy (n + 1) step).run steps := by
  have h_names : ∀ h ∈ s.handlers, h.Nameable := fun h hh => (hn h hh).nameable
  have h_step := step_of_firstAbort h_names hctx h_unedited h_abort
  -- the books and the registry, said of the step and hence of what it left
  have h_some : s.agenda step ≠ [] := by
    intro h_nil
    rw [h_nil] at h_abort
    exact h_abort.not_nil
  have h_booked : Booked s (s.leftBy (n + 1) step) := by
    have h_along := along_booked.step hn h_some
    rwa [h_step] at h_along
  have h_enrols : Enrols s (s.leftBy (n + 1) step) := by
    have h_along := along_enrols.step h_names h_some
    rwa [h_step] at h_along
  have h_calls : callsSince s (s.leftBy (n + 1) step) = (s.agenda step).take (n + 1) := by
    unfold callsSince
    rw [leftBy_history, List.drop_left]
  refine ⟨?_, h_step, h_abort.cutShort h_calls h_booked h_enrols, fun steps => ?_⟩
  · -- the last call is one that took place
    obtain ⟨last, h_take, h_last⟩ := h_abort.exists_last
    have h_mem : last ∈ callsSince s (s.leftBy (n + 1) step) := by
      rw [h_calls, h_take]
      exact List.mem_append_right _ (List.mem_singleton.mpr rfl)
    exact (h_booked.genuine last h_mem).requests_end h_last
  · rw [run, h_step]

/-- Two handlers, one of which registers a third whenever it is called for a schema. The third one
requests the end of the run. -/
def quitting : Session where
  registry :=
    [.registering (.text "host") [.schema]
      (.handler (.failing (.text "quitter") [.schema] (.raised .exit "bye"))),
     .failing (.text "broken") [.schema] (.raised .value "no")]

theorem quitting_tame : ∀ h ∈ quitting.handlers, h.Tame := by
  intro h hh
  have h_reg : h ∈ quitting.registry := (List.mem_filter.mp hh).1
  rcases List.mem_pair.mp h_reg with rfl | rfl
  · exact Handler.tame_registering _ _ (Handler.tame_failing _ _ _)
  · exact Handler.tame_failing _ _ _

/-- The handler registered in the pass for the first schema ends that for the second. -/
theorem quitting_firstAbort :
    FirstAbort (quitting.agenda (.applyComponents twoSchemas)) 6 (.raised .exit "bye") where
  aborts := rfl
  before := by
    have h_endings : ((quitting.agenda (.applyComponents twoSchemas)).take 6).map
        (fun i => i.ending) = [.returned, .returned, .returned, .failed (.raised .value "no"),
          .returned, .failed (.raised .value "no")] := rfl
    exact noneAborts_of_endings h_endings (by simp)
  answered := by
    have h_methods : ((quitting.agenda (.applyComponents twoSchemas)).take 7).map
        (fun i => i.handler.missing i.call.scope) = List.replicate 7 none := rfl
    intro i hi
    exact List.eq_of_mem_replicate (h_methods ▸ List.mem_map_of_mem hi)

theorem abort_exact_quitting :
    quitting.context.isSome ∧ (∀ h ∈ quitting.handlers, h.Named)
      ∧ quitting.Unedited 6 (.applyComponents twoSchemas)
      ∧ FirstAbort (quitting.agenda (.applyComponents twoSchemas)) 6 (.raised .exit "bye")
      ∧ (quitting.step (.applyComponents twoSchemas)).2 = .error (.raised .exit "bye")
      ∧ (quitting.leftBy 7 (.applyComponents twoSchemas)).tally.total = 6 := by
  have h_named : ∀ h ∈ quitting.handlers, h.Named := by
    intro h hh
    rcases List.mem_pair.mp (List.mem_filter.mp hh).1 with rfl | rfl
    · exact ⟨_, rfl⟩
    · exact ⟨_, rfl⟩
  have h_unedited : quitting.Unedited 6 (.applyComponents twoSchemas) := by
    have h_schemas : schemasOf? twoSchemas = some (Entries.ofPairs
        [(.text "A", .map []), (.text "n", .int 1), (.text "B", .map [])]) := rfl
    refine ⟨schemasDistinct_of_ofPairs h_schemas, ?_⟩
    exact steady_of_tame (s := quitting.withSchemas (tableOf twoSchemas)) quitting_tame 6 _
  obtain ⟨-, h_step, h_cut, -⟩ := abort_exact rfl h_named h_unedited quitting_firstAbort
  refine ⟨rfl, h_named, h_unedited, quitting_firstAbort, ?_, h_cut.total⟩
  rw [h_step]

end Session

end SchemaNaming
