import SchemaNaming.Proofs.Dispatch.Call

/-!
# Passes

A pass calls the handlers that are enabled when it starts, once each and in the order of
registration. Said without the dispatcher's loop, and without the faults that end it:

* `Session.afterPass` — what a pass leaves: the effects of its calls, one after another, the name
  of the schema at hand having been reset first;
* `Session.afterPasses` — the same for a sequence of passes;
* `Session.owed` — the calls that a sequence of passes owes, where each pass owes a call to exactly
  those handlers that are enabled at its start. As the start of a pass is what the passes before it
  left, handlers registered on the way are owed calls from the next pass on;
* `Session.runLog` — the record of these calls, with the context at the start of each.

The loop agrees with this as long as no call aborts and no handler lacks the method for its call.
`Session.PassEnd` has the ways in which a pass can end: it made all its calls and left `afterCalls`,
or it stopped right after the first call that aborted, which is the last one in the history then, or
right before a call for which there was no method. So a pass none of whose calls aborts returns if
and only if all its handlers have the method (`Session.pass_returns_iff`).

A property of handlers that passes on to what a handler brings in holds of all enabled handlers at
every later point (`Session.forall_handlers_afterPass`).
-/

namespace SchemaNaming

namespace Session

/-! ### The calls of a pass -/

/-- The calls made since an earlier point of the session. -/
def callsSince (s t : Session) : List Invocation := t.history.drop s.history.length

/-- None of the calls ended the operation that it was part of. -/
def NoneAborts (is : List Invocation) : Prop := ∀ i ∈ is, ∀ f, i.ending ≠ .aborted f

theorem noneAborts_of_endings {is : List Invocation} {es : List Ending}
    (h_endings : is.map (fun i => i.ending) = es) (h_es : ∀ f, .aborted f ∉ es) :
    NoneAborts is := by
  intro i hi f h_abort
  refine h_es f ?_
  rw [← h_endings, ← h_abort]
  exact List.mem_map_of_mem hi

/-- What the given calls leave, each handler being called whatever the calls before it did. -/
def afterCalls (s : Session) (call : Call) (hs : List Handler) : Session :=
  hs.foldl (fun t h => t.afterCall h call) s

@[simp] theorem afterCalls_nil (s : Session) (call : Call) : s.afterCalls call [] = s := rfl

@[simp] theorem afterCalls_cons (s : Session) (call : Call) (h : Handler) (hs : List Handler) :
    s.afterCalls call (h :: hs) = (s.afterCall h call).afterCalls call hs := rfl

/-- How a pass over the handlers ends. -/
inductive PassEnd (s : Session) (call : Call) (hs : List Handler) : Prop
  /-- All calls are made, and none of them aborts. -/
  | through (h_answer : ∀ h ∈ hs, h.Answers call.scope)
      (h_pass : s.pass call hs = (s.afterCalls call hs, none))
  /-- A call aborts, and nobody is called any more. -/
  | aborted {before : List Handler} {h : Handler} {after : List Handler} {f : Fault}
      (h_split : hs = before ++ h :: after)
      (h_abort : (s.afterCalls call before).endingOf h call = .aborted f)
      (h_pass : s.pass call hs = ((s.afterCalls call before).afterCall h call, some f))
  /-- A handler has no method for its call. -/
  | stuck {before : List Handler} {h : Handler} {after : List Handler} {f : Fault}
      (h_split : hs = before ++ h :: after) (h_missing : h.missing call.scope = some f)
      (h_pass : s.pass call hs = (s.afterCalls call before, some f))

/-- **Every pass** ends in one of these ways. -/
theorem pass_end {hs : List Handler} (hn : ∀ h ∈ hs, h.Nameable) (s : Session) (call : Call) :
    s.PassEnd call hs := by
  induction hs generalizing s with
  | nil => exact .through (List.forall_mem_nil _) rfl
  | cons h hs ih =>
    have hn' : ∀ g ∈ hs, g.Nameable := fun g hg => hn g (List.mem_cons_of_mem _ hg)
    rcases attempt_cases (hn h List.mem_cons_self) s call with
      ⟨h_answers, h_attempt⟩ | ⟨f, h_missing, h_attempt⟩
    · cases he : s.endingOf h call with
      | aborted f =>
        refine @PassEnd.aborted s call (h :: hs) [] h hs f rfl he ?_
        rw [pass, h_attempt, he]
        rfl
      | returned | failed f =>
        -- the pass goes on from what the call left
        have h_step : s.pass call (h :: hs) = (s.afterCall h call).pass call hs := by
          rw [pass, h_attempt, he]
          rfl
        cases ih hn' (s.afterCall h call) with
        | through h_answer h_pass =>
          exact .through (List.forall_mem_cons.mpr ⟨h_answers, h_answer⟩) (h_step.trans h_pass)
        | @aborted before g after f h_split h_abort h_pass =>
          exact @PassEnd.aborted s call (h :: hs) (h :: before) g after f
            (congrArg (h :: ·) h_split) h_abort (h_step.trans h_pass)
        | @stuck before g after f h_split h_missing h_pass =>
          exact @PassEnd.stuck s call (h :: hs) (h :: before) g after f
            (congrArg (h :: ·) h_split) h_missing (h_step.trans h_pass)
    · refine @PassEnd.stuck s call (h :: hs) [] h hs f rfl h_missing ?_
      rw [pass, h_attempt]
      rfl

/-- Whichever way a pass ends, it leaves what the first of its calls leave. -/
theorem exists_made {hs : List Handler} (hn : ∀ h ∈ hs, h.Nameable) (s : Session) (call : Call) :
    ∃ made, made <+: hs ∧ (s.pass call hs).1 = s.afterCalls call made := by
  cases pass_end hn s call with
  | through _ h_pass => exact ⟨hs, List.prefix_refl _, congrArg Prod.fst h_pass⟩
  | @aborted before h after _ h_split _ h_pass =>
    -- the call that aborts is one of those made
    refine ⟨before ++ [h], ⟨after, ?_⟩, ?_⟩
    · rw [h_split, List.append_assoc]
      rfl
    · rw [h_pass, afterCalls, afterCalls, List.foldl_append]
      rfl
  | @stuck before h after _ h_split _ h_pass =>
    exact ⟨before, ⟨h :: after, h_split.symm⟩, congrArg Prod.fst h_pass⟩

/-- The record of the given calls: each starts from the context that the ones before it left. -/
def passLog (s : Session) (call : Call) : List Handler → List Invocation
  | [] => []
  | h :: hs => ⟨h, call, s.context, s.endingOf h call⟩ :: (s.afterCall h call).passLog call hs

theorem afterCalls_history (s : Session) (call : Call) (hs : List Handler) :
    (s.afterCalls call hs).history = s.history ++ s.passLog call hs := by
  induction hs generalizing s with
  | nil => exact (List.append_nil _).symm
  | cons h hs ih =>
    rw [afterCalls_cons, ih, afterCall_history, List.append_assoc]
    rfl

theorem passLog_calls (s : Session) (call : Call) (hs : List Handler) :
    (s.passLog call hs).map (fun i => (i.handler, i.call)) = hs.map fun h => (h, call) := by
  induction hs generalizing s with
  | nil => rfl
  | cons h hs ih => rw [passLog, List.map_cons, List.map_cons, ih]

/-- **A fault gets out of a pass** with a call that aborts, which is on record then, or where a
handler has no method for its call. -/
theorem pass_fault_cases {hs : List Handler} (hn : ∀ h ∈ hs, h.Nameable) {s : Session}
    {call : Call} {f : Fault} (hf : (s.pass call hs).2 = some f) :
    (∃ i ∈ callsSince s (s.pass call hs).1, i.ending = .aborted f)
      ∨ ∃ h ∈ hs, h.missing call.scope = some f := by
  cases pass_end hn s call with
  | through _ h_pass =>
    rw [h_pass] at hf
    cases hf
  | @aborted before h after f' _ h_abort h_pass =>
    -- the record ends with the call that aborted
    rw [h_pass] at hf ⊢
    obtain rfl : f' = f := Option.some.inj hf
    refine .inl ⟨⟨h, call, (s.afterCalls call before).context, .aborted f'⟩, ?_, rfl⟩
    unfold callsSince
    rw [afterCall_history, afterCalls_history, h_abort, List.append_assoc, List.drop_left]
    exact List.mem_append_right _ (List.mem_singleton.mpr rfl)
  | @stuck before h after f' h_split h_missing h_pass =>
    rw [h_pass] at hf
    obtain rfl : f' = f := Option.some.inj hf
    rw [h_split]
    exact .inr ⟨h, List.mem_append_right _ List.mem_cons_self, h_missing⟩

/-- A pass out of which no fault gets has found all methods. -/
theorem answers_of_pass_none {hs : List Handler} (hn : ∀ h ∈ hs, h.Nameable) {s : Session}
    {call : Call} (h_none : (s.pass call hs).2 = none) : ∀ h ∈ hs, h.Answers call.scope := by
  cases pass_end hn s call with
  | through h_answer _ => exact h_answer
  | aborted _ _ h_pass | stuck _ _ h_pass =>
    rw [h_pass] at h_none
    cases h_none

/-- **When a pass returns.** If none of its calls aborts, it returns if and only if every handler
has the method for its call. -/
theorem pass_returns_iff {hs : List Handler} (hn : ∀ h ∈ hs, h.Nameable) {s : Session}
    {call : Call} (h_calls : NoneAborts (callsSince s (s.pass call hs).1)) :
    (s.pass call hs).2 = none ↔ ∀ h ∈ hs, h.Answers call.scope := by
  refine ⟨answers_of_pass_none hn, fun h_answer => Option.eq_none_iff_forall_ne_some.mpr ?_⟩
  intro f hf
  rcases pass_fault_cases hn hf with ⟨i, hi, h_abort⟩ | ⟨h, hh, h_missing⟩
  · exact h_calls i hi f h_abort
  · have h_none : h.missing call.scope = none := h_answer h hh
    rw [h_none] at h_missing
    cases h_missing

theorem history_prefix_pass {hs : List Handler} (hn : ∀ h ∈ hs, h.Nameable) (s : Session)
    (call : Call) : s.history <+: (s.pass call hs).1.history := by
  obtain ⟨made, -, h_left⟩ := exists_made hn s call
  rw [h_left, afterCalls_history]
  exact List.prefix_append _ _

theorem callsSince_append {s t u : Session} (hst : s.history <+: t.history)
    (htu : t.history <+: u.history) : callsSince s u = callsSince s t ++ callsSince t u := by
  -- the history is that of `s`, what came up to `t`, and what came after
  obtain ⟨first, h_first⟩ := hst
  obtain ⟨second, h_second⟩ := htu
  unfold callsSince
  rw [← h_second, List.drop_left, ← h_first, List.drop_left, List.append_assoc, List.drop_left]

/-- The calls since a point are among the calls since any point before it. -/
theorem callsSince_subset {s t : Session} (h : s.history <+: t.history) (u : Session) :
    callsSince t u ⊆ callsSince s u := by
  unfold callsSince
  exact List.drop_subset_drop_left _ h.length_le

/-! ### What holds of every enabled handler -/

section Enabled

variable {Q : Handler → Prop}
  (hQ : ∀ {h : Handler} {n call context g}, Q h → Brought (h.react n call context) g → Q g)

include hQ

theorem forall_handlers_afterCalls {call : Call} {hs : List Handler} {s : Session}
    (hhs : ∀ h ∈ hs, Q h) (hs_all : ∀ h ∈ s.handlers, Q h) :
    ∀ h ∈ (s.afterCalls call hs).handlers, Q h := by
  induction hs generalizing s with
  | nil => exact hs_all
  | cons h hs ih =>
    -- a handler enabled after the first call was so before, or the call brought it in
    refine ih (fun g hg => hhs g (List.mem_cons_of_mem _ hg)) ?_
    intro g hg
    rcases mem_handlers_afterCall s h call hg with h_old | hb
    · exact hs_all g h_old
    · exact hQ (hhs h List.mem_cons_self) hb

/-- Also a pass that a fault ends leaves such a property with all enabled handlers. -/
theorem forall_handlers_pass {call : Call} {hs : List Handler} {s : Session}
    (hn : ∀ h ∈ hs, h.Nameable) (hhs : ∀ h ∈ hs, Q h) (hs_all : ∀ h ∈ s.handlers, Q h) :
    ∀ h ∈ (s.pass call hs).1.handlers, Q h := by
  obtain ⟨made, h_made, h_left⟩ := exists_made hn s call
  rw [h_left]
  exact forall_handlers_afterCalls hQ (fun g hg => hhs g (h_made.subset hg)) hs_all

end Enabled

/-- A pass keeps the names of the enabled handlers writable, also when a call aborts. -/
theorem forall_nameable_pass {call : Call} {hs : List Handler} {s : Session}
    (hn : ∀ h ∈ hs, h.Nameable) (hs_all : ∀ h ∈ s.handlers, h.Nameable) :
    ∀ h ∈ (s.pass call hs).1.handlers, h.Nameable :=
  forall_handlers_pass (fun _ hb => hb.nameable) hn hn hs_all

theorem extends_afterCalls (s : Session) (call : Call) (hs : List Handler) :
    s.Extends (s.afterCalls call hs) := by
  induction hs generalizing s with
  | nil => exact .refl s
  | cons h hs ih => exact (extends_afterCall s h call).trans (ih _)

theorem extends_pass {hs : List Handler} (hn : ∀ h ∈ hs, h.Nameable) (s : Session) (call : Call) :
    s.Extends (s.pass call hs).1 := by
  obtain ⟨made, -, h_left⟩ := exists_made hn s call
  rw [h_left]
  exact extends_afterCalls s call made

theorem afterCalls_context_isSome (s : Session) (call : Call) (hs : List Handler) :
    (s.afterCalls call hs).context.isSome = s.context.isSome := by
  induction hs generalizing s with
  | nil => rfl
  | cons h hs ih => exact (ih _).trans (afterCall_context_isSome s h call)

theorem afterCalls_withSchemas {hs : List Handler} (hh : ∀ h ∈ hs, h.SparesSchemas) (s : Session)
    (call : Call) (t : Option SchemaTable) :
    (s.withSchemas t).afterCalls call hs = (s.afterCalls call hs).withSchemas t := by
  induction hs generalizing s with
  | nil => rfl
  | cons h hs ih =>
    rw [afterCalls_cons, (afterCall_withSchemas (hh h List.mem_cons_self) s call t).1]
    exact ih (fun g hg => hh g (List.mem_cons_of_mem _ hg)) _

theorem pass_withSchemas {hs : List Handler} (hh : ∀ h ∈ hs, h.Tame) (s : Session) (call : Call)
    (t : Option SchemaTable) :
    (s.withSchemas t).pass call hs = ((s.pass call hs).1.withSchemas t, (s.pass call hs).2) := by
  induction hs generalizing s with
  | nil => rfl
  | cons h hs ih =>
    have hh' : ∀ g ∈ hs, g.Tame := fun g hg => hh g (List.mem_cons_of_mem _ hg)
    have h_tame : h.Tame := hh h List.mem_cons_self
    have h_answers : h.Answers call.scope := h_tame.complete call.scope
    obtain ⟨h_call, h_ending⟩ := afterCall_withSchemas h_tame.spares s call t
    -- the first call goes the same way with either table, and so does the pass after it
    simp only [pass, attempt_eq h_tame.nameable h_answers, h_call, h_ending]
    cases (s.endingOf h call).escaped? with
    | none => exact ih hh' _
    | some f => rfl

/-! ### Whole passes -/

/-- The session in which the handlers of a pass are called: for a schema, its name is the current
one. -/
def passStart (s : Session) : Call → Session
  | .doc _ => s
  | .schema name _ => s.enter name

/-- What a pass leaves, no call of it having aborted. -/
def afterPass (s : Session) (call : Call) : Session :=
  (s.passStart call).afterCalls call s.handlers

/-- What a sequence of passes leaves. -/
def afterPasses (s : Session) (calls : List Call) : Session := calls.foldl afterPass s

/-- The calls that a sequence of passes owes. Each pass owes one to every handler that is enabled
when it starts, in the order of registration, and to no other. -/
def owed (s : Session) : List Call → List (Handler × Call)
  | [] => []
  | call :: calls => s.handlers.map (fun h => (h, call)) ++ (s.afterPass call).owed calls

/-- The record of a sequence of passes. -/
def runLog (s : Session) : List Call → List Invocation
  | [] => []
  | call :: calls =>
    (s.passStart call).passLog call s.handlers ++ (s.afterPass call).runLog calls

/-- No fault gets out of the pass. -/
def Returns (s : Session) (call : Call) : Prop :=
  ((s.passStart call).pass call s.handlers).2 = none

/-- No fault gets out of any of the passes. -/
def Completes (s : Session) : List Call → Prop
  | [] => True
  | call :: calls => s.Returns call ∧ (s.afterPass call).Completes calls

section PassStart

variable (s : Session) (call : Call)

@[simp] theorem passStart_handlers : (s.passStart call).handlers = s.handlers := by
  cases call <;> rfl

@[simp] theorem passStart_history : (s.passStart call).history = s.history := by
  cases call <;> rfl

@[simp] theorem passStart_context_isSome :
    (s.passStart call).context.isSome = s.context.isSome := by
  cases call with
  | doc document => rfl
  | schema name body => cases hc : s.context <;> simp [passStart, enter, hc]

theorem passStart_withSchemas (t : Option SchemaTable) :
    (s.withSchemas t).passStart call = (s.passStart call).withSchemas t := by
  cases call <;> rfl

end PassStart

/-- A pass out of which no fault gets has made all its calls. -/
theorem pass_eq_afterPass {s : Session} {call : Call} (hn : ∀ h ∈ s.handlers, h.Nameable)
    (hr : s.Returns call) :
    (s.passStart call).pass call s.handlers = (s.afterPass call, none) := by
  cases pass_end hn (s.passStart call) call with
  | through _ h_pass => exact h_pass
  | aborted _ _ h_pass | stuck _ _ h_pass =>
    -- a pass that stops does not return
    unfold Returns at hr
    rw [h_pass] at hr
    cases hr

@[simp] theorem afterPasses_cons (s : Session) (call : Call) (calls : List Call) :
    s.afterPasses (call :: calls) = (s.afterPass call).afterPasses calls := rfl

theorem afterPasses_history (s : Session) (calls : List Call) :
    (s.afterPasses calls).history = s.history ++ s.runLog calls := by
  induction calls generalizing s with
  | nil => exact (List.append_nil _).symm
  | cons call calls ih =>
    rw [afterPasses_cons, ih, afterPass, afterCalls_history, passStart_history, List.append_assoc]
    rfl

/-- **The calls on record** are exactly those that the passes owe, in the same order. -/
theorem runLog_calls (s : Session) (calls : List Call) :
    (s.runLog calls).map (fun i => (i.handler, i.call)) = s.owed calls := by
  induction calls generalizing s with
  | nil => rfl
  | cons call calls ih => rw [runLog, List.map_append, passLog_calls, ih, owed]

/-- A property that passes on to what handlers bring in holds of all enabled handlers after a
pass. -/
theorem forall_handlers_afterPass {Q : Handler → Prop}
    (hQ : ∀ {h : Handler} {n call context g}, Q h → Brought (h.react n call context) g → Q g)
    {s : Session} (hs : ∀ h ∈ s.handlers, Q h) (call : Call) :
    ∀ h ∈ (s.afterPass call).handlers, Q h :=
  forall_handlers_afterCalls hQ hs (by rw [passStart_handlers]; exact hs)

theorem afterPass_context_isSome (s : Session) (call : Call) :
    (s.afterPass call).context.isSome = s.context.isSome :=
  (afterCalls_context_isSome _ call _).trans (passStart_context_isSome s call)

theorem history_prefix_afterPass (s : Session) (call : Call) :
    s.history <+: (s.afterPass call).history := by
  rw [afterPass, afterCalls_history, passStart_history]
  exact List.prefix_append _ _

theorem extends_afterPass (s : Session) (call : Call) : s.Extends (s.afterPass call) := by
  have h_start : s.Extends (s.passStart call) := by
    cases call with
    | doc _ => exact .refl s
    | schema _ _ => exact ⟨List.prefix_refl _, rfl⟩
  exact h_start.trans (extends_afterCalls _ call s.handlers)

/-! ### Passes of handlers that edit no schemas -/

section Tame

variable {s : Session} (hs : ∀ h ∈ s.handlers, h.Tame)

include hs

theorem forall_tame_afterPass (call : Call) : ∀ h ∈ (s.afterPass call).handlers, h.Tame :=
  forall_handlers_afterPass (fun hh hb => Brought.tame hh hb) hs call

theorem afterPass_withSchemas (call : Call) (t : Option SchemaTable) :
    (s.withSchemas t).afterPass call = (s.afterPass call).withSchemas t := by
  unfold afterPass
  rw [passStart_withSchemas, withSchemas_handlers]
  exact afterCalls_withSchemas (fun h hh => (hs h hh).spares) _ call t

theorem afterPass_schemas (call : Call) : (s.afterPass call).schemas = s.schemas := by
  have h := afterPass_withSchemas hs call s.schemas
  rw [withSchemas_self] at h
  rw [h, withSchemas_schemas]

theorem returns_withSchemas (call : Call) (t : Option SchemaTable) :
    (s.withSchemas t).Returns call ↔ s.Returns call := by
  unfold Returns
  rw [passStart_withSchemas, withSchemas_handlers, pass_withSchemas hs]

end Tame

theorem completes_withSchemas {s : Session} (hs : ∀ h ∈ s.handlers, h.Tame) (calls : List Call)
    (t : Option SchemaTable) : (s.withSchemas t).Completes calls ↔ s.Completes calls := by
  induction calls generalizing s with
  | nil => exact Iff.rfl
  | cons call calls ih =>
    -- the table is carried along from pass to pass, and asked by none of them
    unfold Completes
    rw [returns_withSchemas hs, afterPass_withSchemas hs, ih (forall_tame_afterPass hs call)]

end Session

end SchemaNaming
