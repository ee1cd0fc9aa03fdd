import Mathlib
import SchemaNaming.Proofs.Dispatch.Registered

/-!
# The books of a session

The dispatcher counts the calls that it makes, and reports those that fail. This module says that
these books agree with the history: every counter stands at the number of calls on record that
belong to it, and the warnings are those of the failed calls, in order.

* `Invocation.countsFor` — whether a call belongs to a counter, said by the name of its handler, its
  scope and its ending;
* `Session.Tallied` — between two points of a run the counters have grown by the calls in between;
* `Session.Booked` — and so have the warnings;
* `Session.along_booked` — both of them across an operation, by what one call adds;
* `Session.run_balanced` — the counters at every point of a session.

A call that aborts belongs to no counter, and a step in which the dispatcher calls nobody leaves the
counters as they are. The handlers here are `Handler.Named`, as a handler without a text for a name
has no counter.
-/

namespace SchemaNaming

/-- The outcome under which a call is counted. One that ended the operation is not counted. -/
def Ending.outcome? : Ending → Option Outcome
  | .returned => some .ok
  | .failed _ => some .error
  | .aborted _ => none

namespace Handler

/-- The calls of the handler are counted under `label`: its name, or `unknown` for the empty one. -/
def countedAs (label : String) (h : Handler) : Bool :=
  match h.name with
  | .text n => (if n = "" then "unknown" else n) = label
  | _ => false

theorem Named.countedAs_iff {h : Handler} (hh : h.Named) (label : String) :
    h.countedAs label = true ↔ h.label = label := by
  obtain ⟨n, hn⟩ := hh
  have h_label : h.label = if n = "" then "unknown" else n := by
    unfold Handler.label labelOf
    rw [hn]
    by_cases h_empty : n = "" <;> simp [Value.truthy, h_empty, Value.generalText, Except.toOption]
  rw [h_label]
  unfold countedAs
  rw [hn]
  exact decide_eq_true_iff

end Handler

namespace Invocation

/-- The call belongs to the counter: it took place in its scope and ended with its outcome, and its
handler had its label at the time. -/
def countsFor (k : TallyKey) (i : Invocation) : Bool :=
  i.handler.countedAs k.handler && i.call.scope = k.scope && i.ending.outcome? = some k.outcome

/-- The call belongs to some counter. -/
def counted (i : Invocation) : Bool := i.ending.outcome?.isSome

/-- The warning about the call, if it failed. -/
def warning? (i : Invocation) : Option Notice :=
  match i.ending with
  | .failed f => some (.failed i.call.scope i.handler.nameText f)
  | _ => none

/-- The record is that of a call in some session: a named handler was called, and ended as its
reaction to the call does. -/
structure Genuine (i : Invocation) : Prop where
  named : i.handler.Named
  ended : ∃ s : Session, i.context = s.context ∧ i.ending = s.endingOf i.handler i.call

/-- The counter of a call is the one that its label, its scope and its outcome say. -/
theorem countsFor_iff {i : Invocation} (hi : i.handler.Named) (k : TallyKey) :
    i.countsFor k = true
      ↔ i.ending.outcome?.map (fun o => ⟨i.handler.label, i.call.scope, o⟩) = some k := by
  obtain ⟨label, scope, outcome⟩ := k
  unfold countsFor
  rw [Bool.and_eq_true, Bool.and_eq_true, hi.countedAs_iff, decide_eq_true_iff, decide_eq_true_iff,
    Option.map_eq_some_iff]
  constructor
  · rintro ⟨⟨h_label, h_scope⟩, h_outcome⟩
    exact ⟨outcome, h_outcome, by rw [h_label, h_scope]⟩
  · rintro ⟨o, h_outcome, h_key⟩
    obtain ⟨h_label, h_scope, rfl⟩ := TallyKey.mk.inj h_key
    exact ⟨⟨h_label, h_scope⟩, h_outcome⟩

end Invocation

namespace Tally

/-- All that was counted. -/
def total (t : Tally) : Nat := (t.map Prod.snd).sum

theorem total_bump (t : Tally) (k : TallyKey) : (t.bump k).total = t.total + 1 := by
  induction t with
  | nil => rfl
  | cons e t ih =>
    by_cases h : e.1 = k
    · rw [bump, if_pos h]
      simp only [total, List.map_cons, List.sum_cons]
      omega
    · rw [bump, if_neg h]
      simp only [total, List.map_cons, List.sum_cons] at ih ⊢
      omega

theorem count_bump (t : Tally) (k l : TallyKey) :
    (t.bump k).count l = t.count l + if k = l then 1 else 0 := by
  by_cases h : k = l
  · rw [if_pos h, h, count_bump_self]
  · rw [if_neg h, count_bump_of_ne t (Ne.symm h), Nat.add_zero]

end Tally

namespace Session

/-- The warnings, in order. -/
def warnings (s : Session) : List Notice := s.notices.filter fun n => n.level = .warning

/-! ### Between two points of a run -/

/-- The counters have grown by the calls in between, and these are on record as they took place. -/
structure Tallied (s t : Session) : Prop where
  history : s.history <+: t.history
  genuine : ∀ i ∈ callsSince s t, i.Genuine
  counts : ∀ k, t.tally.count k = s.tally.count k + (callsSince s t).countP (·.countsFor k)
  total : t.tally.total = s.tally.total + (callsSince s t).countP (·.counted)

/-- And for each call in between that failed there is a warning, in the same order. -/
structure Booked (s t : Session) : Prop extends Tallied s t where
  warnings : t.warnings = s.warnings ++ (callsSince s t).filterMap (·.warning?)

section Between

variable {s t u : Session}

theorem callsSince_of_history_eq (h : t.history = s.history) : callsSince s t = [] := by
  unfold callsSince
  rw [h, List.drop_length]

/-- A step in which nobody is called. -/
theorem Tallied.of_eq (h_history : t.history = s.history) (h_tally : t.tally = s.tally) :
    Tallied s t := by
  have h_none : callsSince s t = [] := callsSince_of_history_eq h_history
  refine ⟨by rw [h_history], ?_, ?_, ?_⟩
  · rw [h_none]
    exact List.forall_mem_nil _
  · intro k
    rw [h_none, h_tally]
    rfl
  · rw [h_none, h_tally]
    rfl

theorem Tallied.trans (hst : Tallied s t) (htu : Tallied t u) : Tallied s u := by
  have h_calls := callsSince_append hst.history htu.history
  refine ⟨hst.history.trans htu.history, ?_, ?_, ?_⟩
  · rw [h_calls]
    intro i hi
    rcases List.mem_append.mp hi with hi | hi
    · exact hst.genuine i hi
    · exact htu.genuine i hi
  · intro k
    rw [h_calls, List.countP_append, htu.counts, hst.counts, Nat.add_assoc]
  · rw [h_calls, List.countP_append, htu.total, hst.total, Nat.add_assoc]

theorem Booked.of_eq (h_history : t.history = s.history) (h_tally : t.tally = s.tally)
    (h_warnings : t.warnings = s.warnings) : Booked s t where
  toTallied := .of_eq h_history h_tally
  warnings := by
    rw [callsSince_of_history_eq h_history, h_warnings]
    exact (List.append_nil _).symm

theorem Booked.trans (hst : Booked s t) (htu : Booked t u) : Booked s u where
  toTallied := hst.toTallied.trans htu.toTallied
  warnings := by
    rw [callsSince_append hst.history htu.history, List.filterMap_append, htu.warnings,
      hst.warnings, List.append_assoc]

end Between

/-! ### What one call adds -/

theorem perform_tally (s : Session) (e : Effect) : (s.perform e).1.tally = s.tally := by
  cases e <;> simp only [perform] <;> (repeat' split) <;> rfl

@[simp] theorem performAll_tally (s : Session) (es : List Effect) :
    (s.performAll es).1.tally = s.tally :=
  performAll_frame Session.tally perform_tally es s

theorem warnings_notify_of_debug {n : Notice} (h : n.level = .debug) (s : Session) :
    (s.notify n).warnings = s.warnings := by
  unfold warnings notify
  rw [List.filter_append, List.filter_singleton, h]
  exact List.append_nil _

/-- The registry reports what it does, but does not warn. -/
theorem offer_level (serial : Nat) (shippedName : Value) (r : Registry) (c : Candidate) :
    (r.offer serial shippedName c).2.level = .debug := by
  have h_enrol : ∀ h : Handler, (r.enrol serial h).2.level = .debug := fun h => by
    unfold Registry.enrol
    split <;> rfl
  cases c with
  | absent | nameless => rfl
  | handler h => exact h_enrol h
  | shipped => exact h_enrol _

theorem perform_warnings (s : Session) (e : Effect) : (s.perform e).1.warnings = s.warnings := by
  cases e with
  | register c => exact warnings_notify_of_debug (offer_level _ _ _ c) _
  | _ =>
    simp only [perform]
    repeat' split
    all_goals rfl

theorem book_tally (s : Session) (h : Handler) (call : Call) (ending : Ending) :
    (s.book h call ending).tally
      = (ending.outcome?.elim s.tally fun o => s.tally.bump ⟨h.label, call.scope, o⟩) := by
  cases ending <;> rfl

theorem book_warnings (s : Session) {i : Invocation} :
    (s.book i.handler i.call i.ending).warnings = s.warnings ++ i.warning?.toList := by
  obtain ⟨h, call, context, ending⟩ := i
  cases ending with
  | returned | aborted f => exact (List.append_nil _).symm
  | failed f => exact List.filter_append _ _

theorem callsSince_afterCall (s : Session) (h : Handler) (call : Call) :
    callsSince s (s.afterCall h call) = [⟨h, call, s.context, s.endingOf h call⟩] := by
  unfold callsSince
  rw [afterCall_history, List.drop_left]

/-- **One call** adds itself to the books, unless it aborts. -/
theorem booked_afterCall (s : Session) {h : Handler} (hh : h.Named) (call : Call) :
    Booked s (s.afterCall h call) := by
  have h_calls := callsSince_afterCall s h call
  have h_tally : (s.afterCall h call).tally
      = ((s.endingOf h call).outcome?.elim s.tally fun o =>
          s.tally.bump ⟨h.label, call.scope, o⟩) := by
    unfold afterCall reaction
    rw [book_tally]
    simp [note]
  refine ⟨⟨?_, ?_, ?_, ?_⟩, ?_⟩
  · rw [afterCall_history]
    exact List.prefix_append _ _
  · rw [h_calls]
    exact List.forall_mem_singleton.mpr ⟨hh, s, rfl, rfl⟩
  · intro k
    have h_belongs := Invocation.countsFor_iff (i := ⟨h, call, s.context, s.endingOf h call⟩) hh k
    rw [h_calls, h_tally, List.countP_singleton]
    cases h_outcome : (s.endingOf h call).outcome? with
    | none =>
      rw [h_outcome] at h_belongs
      have h_uncounted := mt h_belongs.mp (by simp)
      rw [if_neg h_uncounted]
      rfl
    | some o =>
      rw [h_outcome, Option.map_some, Option.some.injEq] at h_belongs
      rw [Option.elim_some, Tally.count_bump]
      exact congrArg _ (if_congr h_belongs.symm rfl rfl)
  · rw [h_calls, h_tally, List.countP_singleton, Invocation.counted]
    cases (s.endingOf h call).outcome? with
    | none => rfl
    | some o => exact Tally.total_bump _ _
  · have h_frame : (s.reaction h call).1.warnings = s.warnings :=
      performAll_frame warnings perform_warnings _ s
    let i : Invocation := ⟨h, call, s.context, s.endingOf h call⟩
    have h_one : [i].filterMap (·.warning?) = i.warning?.toList := by
      cases h_warning : i.warning? with
      | none => exact List.filterMap_cons_none h_warning
      | some n => exact List.filterMap_cons_some h_warning
    rw [h_calls, h_one, ← h_frame]
    exact book_warnings _ (i := i)

/-! ### Operations -/

/-- **The books of an operation.** -/
theorem along_booked : Along Handler.Named Booked where
  nameable := Handler.Named.nameable
  brought _ hb := hb.1
  refl _ := .of_eq rfl rfl rfl
  trans := Booked.trans
  enter _ _ := .of_eq rfl rfl rfl
  withSchemas _ _ := .of_eq rfl rfl rfl
  notify s _ hn := .of_eq rfl rfl (warnings_notify_of_debug hn s)
  call s _ call hh := booked_afterCall s hh call

/-! ### Sessions -/

/-- The dispatcher calls nobody in the step. -/
def Silent (s : Session) : Step → Prop
  | .applyDoc _ => False
  | .applySchema _ _ => False
  | .applyComponents _ => s.context = none
  | _ => True

/-- A silent step leaves the books alone, also one that calls the shipped handler directly. -/
theorem step_of_silent {s : Session} {step : Step} (h : s.Silent step) :
    (s.step step).1.history = s.history ∧ (s.step step).1.tally = s.tally := by
  cases step with
  | applyDoc | applySchema => exact h.elim
  | applyComponents doc =>
    have h_none : s.context.isSome = false := by rw [h]; rfl
    rw [step_applyComponents, applyComponents_of_isNone h_none]
    exact ⟨rfl, rfl⟩
  | callShipped call =>
    rw [step_callShipped]
    exact ⟨performAll_history s _, performAll_tally s _⟩
  | setName name resolved =>
    rw [step_setName]
    exact ⟨perform_history s _, perform_tally s _⟩
  | newRegistry shipped => cases shipped <;> exact ⟨rfl, rfl⟩
  | rename | readConfig | resolvedName =>
    simp only [step]
    split <;> exact ⟨rfl, rfl⟩
  | register | list | listAfterClearing | size | fingerprint | setConfig | handlers | setContext =>
    exact ⟨rfl, rfl⟩

/-- **One step** of a session. -/
theorem tallied_step {s : Session} (hs : s.registry.AllNamed) (step : Step) :
    Tallied s (s.step step).1 := by
  have h_handlers : ∀ h ∈ s.handlers, h.Named := Registry.allNamed_invariant.handlers hs
  have h_silent : s.Silent step → Tallied s (s.step step).1 := fun h => by
    obtain ⟨h_history, h_tally⟩ := step_of_silent h
    exact .of_eq h_history h_tally
  cases step with
  | applyDoc doc =>
    rw [step_applyDoc]
    exact (along_booked.applyDoc h_handlers doc).toTallied
  | applySchema name body =>
    rw [step_applySchema]
    exact (along_booked.applySchema h_handlers name body).toTallied
  | applyComponents doc => exact (along_booked.applyComponents h_handlers doc).toTallied
  | _ => exact h_silent trivial

/-- **A session**: between any two of its points the counters grow by the calls in between. -/
theorem pairwise_tallied {s : Session} (hs : s.registry.AllNamed) {steps : List Step}
    (h_steps : ∀ step ∈ steps, step.KeepsNames) : (s.points steps).Pairwise Tallied := by
  induction steps generalizing s with
  | nil => exact List.pairwise_singleton _ _
  | cons step steps ih =>
    have hs' : (s.step step).1.registry.AllNamed :=
      Registry.allNamed_invariant.step hs (h_steps step List.mem_cons_self)
    have ih := ih hs' fun st hst => h_steps st (List.mem_cons_of_mem step hst)
    rw [points_cons]
    refine List.pairwise_cons.mpr ⟨?_, ih⟩
    -- first to the point that the step left, and from there on
    have h_step : Tallied s (s.step step).1 := tallied_step hs step
    intro t ht
    rcases List.mem_cons.mp ht with rfl | ht
    · exact h_step
    · exact h_step.trans ((List.pairwise_cons.mp ih).1 t ht)

/-- The counters stand at the number of calls on record that belong to them, and altogether at the
number of calls that returned or failed. The record is that of calls that took place. -/
structure Balanced (s : Session) : Prop where
  genuine : ∀ i ∈ s.history, i.Genuine
  counts : ∀ k, s.tally.count k = s.history.countP (·.countsFor k)
  total : s.tally.total = s.history.countP (·.counted)

/-- What was booked since the start was booked altogether. -/
theorem Tallied.balanced {t : Session} (h : Tallied {} t) : t.Balanced where
  genuine := h.genuine
  counts k := (h.counts k).trans (Nat.zero_add _)
  total := h.total.trans (Nat.zero_add _)

/-- **Conservation.** Let the handlers of a session be renamed to texts only. At each of its points
every counter stands at the number of calls so far that belong to it, and no counter ever goes down.
Every call of the dispatcher is on record once, with the way in which it ended, and steps in which
it calls nobody change neither the record nor a counter. -/
theorem run_balanced {steps : List Step} (h_steps : ∀ step ∈ steps, step.KeepsNames) :
    (∀ s ∈ points {} steps, s.Balanced)
      ∧ (points {} steps).Pairwise (fun s t => ∀ k, s.tally.count k ≤ t.tally.count k)
      ∧ (∀ (s : Session) (h : Handler) (call : Call), h.Named →
          (s.invoke h call).1.history = s.history ++ [⟨h, call, s.context, s.endingOf h call⟩])
      ∧ ∀ (s : Session) (step : Step), s.Silent step →
          (s.step step).1.history = s.history ∧ (s.step step).1.tally = s.tally := by
  have h_tallied : (points {} steps).Pairwise Tallied :=
    pairwise_tallied (Registry.allNamed_invariant.empty 0) h_steps
  refine ⟨fun s hs => ?_, h_tallied.imp fun h_st k => ?_, fun s h call hh => ?_,
    fun s step h_silent => step_of_silent h_silent⟩
  · rcases List.mem_cons.mp hs with rfl | hs
    · exact (Tallied.of_eq rfl rfl : Tallied {} {}).balanced
    · exact ((List.pairwise_cons.mp h_tallied).1 s hs).balanced
  · rw [h_st.counts k]
    exact Nat.le_add_right _ _
  · rw [invoke_eq hh.nameable]
    exact afterCall_history s h call

/-- Two handlers, one of which loses its name: it returns from the call for a document and ends the
pass for a schema, in which the other one returns. At last there is no context, and the shipped
handler is called past the dispatcher. -/
def renamedQuitter : List Step :=
  [.register (.handler (.failing (.text "broken") [.doc] (.raised .value "no"))),
   .register (.handler (.failing (.text "quitter") [.schema] (.raised .exit "bye"))),
   .rename (-1) (.text ""), .applyDoc .null, .applySchema (.text "A") (.map []),
   .setContext none, .applyComponents .null, .callShipped (.doc .null)]

/-- Four calls, three of which are counted, the one for the document under the missing name. -/
theorem run_balanced_renamedQuitter :
    (∀ step ∈ renamedQuitter, step.KeepsNames)
      ∧ ∃ s ∈ points {} renamedQuitter, s.history.length = 4 ∧ s.tally.total = 3
          ∧ s.tally.count ⟨"unknown", .doc, .ok⟩ = 1 ∧ s.tally.count ⟨"broken", .doc, .error⟩ = 1
          ∧ s.tally.count ⟨"unknown", .schema, .error⟩ = 0 := by
  have h_steps : ∀ step ∈ renamedQuitter, step.KeepsNames := by
    simp [renamedQuitter, Step.KeepsNames]
  let s := (points {} renamedQuitter).getLast (List.cons_ne_nil _ _)
  have hs : s ∈ points {} renamedQuitter := List.getLast_mem _
  have h_balanced : s.Balanced := (run_balanced h_steps).1 s hs
  refine ⟨h_steps, s, hs, rfl, h_balanced.total, ?_, ?_, ?_⟩
  · exact h_balanced.counts _
  · exact h_balanced.counts _
  · exact h_balanced.counts _

end Session

end SchemaNaming
