import SchemaNaming.Proofs.Dispatch.Books
import SchemaNaming.Proofs.Dispatch.Participants

/-!
# Handlers that are not enabled

A run configuration selects the handlers that take part. The others are registered like any handler,
but nothing that happens in a run tells whether they are.

The comparison is between a session and the one whose registry holds the selected handlers only
(`Session.selected`). The two runs stay `Session.Indistinct`: they have the same enabled handlers,
although their registries differ in length at all times, as a handler that is registered on the way
joins the registries of both, be it selected or not.

* `Session.Indistinct.congruence` — the effects of a handler keep the two runs together;
* `Session.Indistinct.passwise` — so does every pass, whatever its handlers are called: a name
  without a text ends both runs in the same way;
* `Session.disabled_unobservable` — what the operations then have in common.

The two registries report different sizes when a handler joins them. These reports are no warnings.
-/

namespace SchemaNaming

namespace Session

/-- The session with the selected handlers alone in its registry. -/
def selected (s : Session) : Session :=
  { s with registry := s.registry.filter fun h => s.activeConfig.isEnabled h.name }

/-- The two sessions differ in nothing but handlers that are not enabled, and in what was reported
about them. -/
structure Indistinct (s t : Session) : Prop where
  handlers : t.handlers = s.handlers
  config : t.config = s.config
  shippedName : t.shippedName = s.shippedName
  nextSerial : t.nextSerial = s.nextSerial
  context : t.context = s.context
  schemas : t.schemas = s.schemas
  /-- The same calls in the same order, from the same contexts and with the same endings. -/
  history : t.history = s.history
  tally : t.tally = s.tally
  warnings : t.warnings = s.warnings

theorem indistinct_selected (s : Session) : Indistinct s s.selected where
  handlers := by
    -- selecting twice is selecting once
    change (s.registry.filter _).filter _ = s.registry.filter _
    rw [List.filter_filter]
    exact List.filter_congr fun h _ => Bool.and_self _
  config := rfl
  shippedName := rfl
  nextSerial := rfl
  context := rfl
  schemas := rfl
  history := rfl
  tally := rfl
  warnings := rfl

/-- Of what is offered, the part that is selected comes last among the enabled handlers. -/
theorem handlers_register (s : Session) (c : Candidate) :
    (s.register c).handlers = s.handlers
      ++ (Registry.offer s.nextSerial s.shippedName [] c).1.filter fun h =>
          s.activeConfig.isEnabled h.name := by
  change (s.registry.offer s.nextSerial s.shippedName c).1.filter _ = _
  rw [Registry.offer_eq_append, List.filter_append]
  rfl

namespace Indistinct

variable {s t : Session}

theorem activeConfig (h : Indistinct s t) : t.activeConfig = s.activeConfig := by
  unfold Session.activeConfig
  rw [h.config]

/-- A candidate joins both registries under the same number, or neither. -/
theorem register (h : Indistinct s t) (c : Candidate) :
    Indistinct (s.register c) (t.register c) where
  handlers := by
    rw [handlers_register, handlers_register, h.handlers, h.nextSerial, h.shippedName,
      h.activeConfig]
  config := h.config
  shippedName := h.shippedName
  nextSerial := congrArg (· + 1) h.nextSerial
  context := h.context
  schemas := h.schemas
  history := h.history
  tally := h.tally
  warnings := by
    have h_s : (s.register c).warnings = s.warnings := perform_warnings s (.register c)
    have h_t : (t.register c).warnings = t.warnings := perform_warnings t (.register c)
    rw [h_s, h_t, h.warnings]

/-- **Effects** do the same in both runs. -/
theorem congruence : Congruence Indistinct where
  context h := h.context
  schemas h := h.schemas
  setContext _ h := { h with context := rfl }
  withSchemas _ h := { h with schemas := rfl }
  register c h := h.register c

theorem note (h : Indistinct s t) (i : Invocation) : Indistinct (s.note i) (t.note i) :=
  { h with history := congrArg (· ++ [i]) h.history }

theorem count (h : Indistinct s t) (label : String) (scope : Scope) (outcome : Outcome) :
    Indistinct (s.count label scope outcome) (t.count label scope outcome) :=
  { h with tally := congrArg (Tally.bump · ⟨label, scope, outcome⟩) h.tally }

theorem notify (h : Indistinct s t) (n : Notice) : Indistinct (s.notify n) (t.notify n) := by
  have h_warnings : (t.notify n).warnings = (s.notify n).warnings := by
    unfold Session.warnings Session.notify
    rw [List.filter_append, List.filter_append]
    exact congrArg (· ++ _) h.warnings
  exact { h with warnings := h_warnings }

/-- **One call.** The handler sees the same in both runs, so it does the same, and then the call is
entered into the books or its name keeps it from being. -/
theorem invoke (h : Indistinct s t) (g : Handler) (call : Call) :
    Agree Indistinct (s.invoke g call) (t.invoke g call) := by
  have h_calls : t.callsOf g.serial = s.callsOf g.serial := by
    unfold callsOf
    rw [h.history]
  obtain ⟨s', t', fault?, hs, ht, h_after⟩ :=
    (congruence.performAll h (g.react (s.callsOf g.serial) call s.context)).exists_eq
  simp only [Session.invoke, h_calls, h.context, hs, ht]
  cases fault? with
  | none =>
    have h_noted := h_after.note ⟨g, call, s.context, .returned⟩
    cases labelOf g.name with
    | ok label => exact ⟨h_noted.count label call.scope .ok, rfl⟩
    | error f => exact ⟨h_noted, rfl⟩
  | some f =>
    by_cases h_contained : f.contained = true
    · have h_noted := h_after.note ⟨g, call, s.context, .failed f⟩
      simp only [h_contained, if_true]
      -- a warning needs the name's text, and a counter its label
      cases g.name.generalText with
      | error f' => exact ⟨h_noted, rfl⟩
      | ok name =>
        cases labelOf g.name with
        | error f' => exact ⟨h_noted, rfl⟩
        | ok label =>
          have h_warned := h_noted.notify (.failed call.scope name f)
          exact ⟨h_warned.count label call.scope .error, rfl⟩
    · simp only [h_contained]
      exact ⟨h_after.note ⟨g, call, s.context, .aborted f⟩, rfl⟩

theorem attempt (h : Indistinct s t) (g : Handler) (call : Call) :
    Agree Indistinct (s.attempt g call) (t.attempt g call) := by
  unfold Session.attempt
  -- what the handler has for methods does not depend on the run
  cases g.missing call.scope with
  | some f => exact ⟨h, rfl⟩
  | none => exact h.invoke g call

theorem pass (h : Indistinct s t) (call : Call) (hs : List Handler) :
    Agree Indistinct (s.pass call hs) (t.pass call hs) := by
  induction hs generalizing s t with
  | nil => exact ⟨h, rfl⟩
  | cons g hs ih =>
    obtain ⟨s', t', fault?, hs, ht, h_after⟩ := (h.attempt g call).exists_eq
    rw [Session.pass, Session.pass, hs, ht]
    cases fault? with
    | none => exact ih h_after
    | some f => exact ⟨h_after, rfl⟩

/-- **A pass** calls the enabled handlers, and these are the same at the start of every pass. -/
theorem passwise : Passwise Indistinct where
  context h := h.context
  schemas h := h.schemas
  enter name h := congruence.enter h name
  withSchemas u h := congruence.withSchemas u h
  notify n _ h := h.notify n
  pass {s t} call h := by
    rw [h.handlers]
    exact h.pass call s.handlers

end Indistinct

/-- **Handlers that are not enabled are unobservable.** Whatever the configuration, the registry and
the handlers, an operation answers the same, or ends with the same fault, whether the handlers that
the configuration does not select are in the registry or left out. It leaves the same context, has
made the same calls in the same order, and leaves the same counters and the same warnings. So do
operations whose handlers register others, selected or not. -/
theorem disabled_unobservable (s : Session) :
    (∀ h, h ∈ s.selected.registry ↔ h ∈ s.registry ∧ s.activeConfig.Selects h.name)
      ∧ (∀ doc, Agree Indistinct (s.applyDoc doc) (s.selected.applyDoc doc))
      ∧ (∀ name body,
          Agree Indistinct (s.applySchema name body) (s.selected.applySchema name body))
      ∧ ∀ doc, Agree Indistinct (s.applyComponents doc) (s.selected.applyComponents doc) := by
  have h_start : Indistinct s s.selected := s.indistinct_selected
  have h_passwise : Passwise Indistinct := Indistinct.passwise
  refine ⟨fun h => ?_, fun doc => ?_, fun name body => ?_, fun doc => ?_⟩
  · rw [← RunConfig.isEnabled_iff]
    exact List.mem_filter
  · exact h_passwise.applyDoc h_start doc
  · exact h_passwise.applySchema h_start name body
  · exact h_passwise.applyComponents h_start doc

end Session

end SchemaNaming
