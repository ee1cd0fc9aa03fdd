import Mathlib.Data.List.Infix
import SchemaNaming.Proofs.Dispatch.Walk

/-!
# What ordinary failures can end

A call that fails in an ordinary way is noted and the next handler is called. So as long as no call
aborts, a pass returns, whatever its handlers do, provided that they can be called at all: what has
a name is taken into a registry, and a handler without the method for its call ends the pass
(`Session.pass_returns_iff`). The operation on a document and its schemas consists of passes, but
between them it walks over a mapping that the handlers may edit, and the walk has faults of its own.

`Session.dispatch_returns_iff` says exactly when the operation keeps the promise that it returns
and has called the handlers for every schema: when they have their methods (`WalkPoint.Equipped`),
and its walk is undisturbed and meets every key that held a mapping at its start. It is enough that
all handlers have both methods and keep the keys in their places. It is not enough that none of them
aborts: a handler that takes the schema at hand out of the document does not fail, and still ends
the operation (`Session.dispatch_aborted_by_edit`).

The argument reads the history in both directions. Every call of a walk is one for a schema that the
walk met (`WalkPoint.walk_calls`), and for a schema that it met every handler enabled then has a
call (`WalkPoint.called_of_meets`).
-/

namespace SchemaNaming

namespace Session

/-! ### Histories of passes and walks -/

/-- What was called between two points was called between two points further apart. -/
theorem mem_callsSince_mono {s t u v : Session} (hst : s.history <+: t.history)
    (huv : u.history <+: v.history) {i : Invocation} (hi : i ∈ callsSince t u) :
    i ∈ callsSince s v :=
  callsSince_subset hst v ((huv.drop _).subset hi)

/-- A call was made before or after any point in between. -/
theorem mem_callsSince_split {s t u : Session} (hst : s.history <+: t.history)
    (htu : t.history <+: u.history) {i : Invocation} (hi : i ∈ callsSince s u) :
    i ∈ callsSince s t ∨ i ∈ callsSince t u := by
  rw [callsSince_append hst htu] at hi
  exact List.mem_append.mp hi

theorem not_mem_callsSince_self {s : Session} {i : Invocation} : i ∉ callsSince s s := by
  unfold callsSince
  rw [List.drop_length]
  exact List.not_mem_nil

theorem pass_calls {hs : List Handler} (hn : ∀ h ∈ hs, h.Nameable) {s : Session} {call : Call}
    {i : Invocation} (hi : i ∈ callsSince s (s.pass call hs).1) : i.call = call := by
  have h_log : ∀ gs, ∀ i ∈ s.passLog call gs, i.call = call := by
    intro gs i hi
    have h_mem : (i.handler, i.call) ∈ gs.map fun h => (h, call) := by
      rw [← passLog_calls s call gs]
      exact List.mem_map_of_mem hi
    obtain ⟨h, -, h_eq⟩ := List.mem_map.mp h_mem
    exact (Prod.mk.inj h_eq).2.symm
  obtain ⟨made, -, h_left⟩ := exists_made hn s call
  unfold callsSince at hi
  rw [h_left, afterCalls_history, List.drop_left] at hi
  exact h_log made i hi

theorem mem_passLog (s : Session) (call : Call) {hs : List Handler} {h : Handler} (hh : h ∈ hs) :
    ∃ i ∈ s.passLog call hs, i.handler = h ∧ i.call = call := by
  have h_mem : (h, call) ∈ (s.passLog call hs).map fun i => (i.handler, i.call) := by
    rw [passLog_calls]
    exact List.mem_map_of_mem hh
  obtain ⟨i, hi, h_eq⟩ := List.mem_map.mp h_mem
  exact ⟨i, hi, Prod.mk.inj h_eq⟩

end Session

namespace WalkPoint

open Session

variable {size : Nat} {p q : WalkPoint}

/-- A pass only adds to the history. -/
theorem history_prefix_pass (hn : ∀ h ∈ p.session.handlers, h.Nameable) (e : Value × Value) :
    p.session.history <+: (p.pass e).1.history :=
  Session.history_prefix_pass (s := p.session.enter e.1) hn (.schema e.1 e.2)

theorem Step.history_prefix (hn : ∀ h ∈ p.session.handlers, h.Nameable) (h_step : Step size p q) :
    p.session.history <+: q.session.history := by
  cases h_step with
  | ignores => exact List.prefix_refl _
  | dispatches _ _ _ h_pass =>
    obtain rfl := eq_afterPass hn h_pass
    exact history_prefix_afterPass _ _

theorem Step.nameable (hn : ∀ h ∈ p.session.handlers, h.Nameable) (h_step : Step size p q) :
    ∀ h ∈ q.session.handlers, h.Nameable := by
  cases h_step with
  | ignores => exact hn
  | dispatches _ _ _ h_pass =>
    obtain rfl := eq_afterPass hn h_pass
    exact forall_handlers_afterPass (fun _ hb => hb.nameable) hn _

theorem Step.handlers_prefix (hn : ∀ h ∈ p.session.handlers, h.Nameable) (h_step : Step size p q) :
    p.session.handlers <+: q.session.handlers := by
  cases h_step with
  | ignores => exact List.prefix_refl _
  | dispatches _ _ _ h_pass =>
    obtain rfl := eq_afterPass hn h_pass
    exact (extends_afterPass _ _).handlers

/-- What one step carries over, a walk carries over to every point that it reaches. -/
theorem Reaches.prefixes (hn : ∀ h ∈ p.session.handlers, h.Nameable) (hq : p.Reaches size q) :
    p.session.history <+: q.session.history ∧ p.session.handlers <+: q.session.handlers
      ∧ ∀ h ∈ q.session.handlers, h.Nameable := by
  induction hq with
  | refl => exact ⟨List.prefix_refl _, List.prefix_refl _, hn⟩
  | tail _ h_step ih =>
    obtain ⟨h_history, h_handlers, h_names⟩ := ih
    exact ⟨h_history.trans (h_step.history_prefix h_names),
      h_handlers.trans (h_step.handlers_prefix h_names), h_step.nameable h_names⟩

/-- Walks never erase history. -/
theorem history_prefix_walk {p : WalkPoint} (hn : ∀ h ∈ p.session.handlers, h.Nameable)
    (names : Entries) : p.session.history <+: (p.walk size names).1.history := by
  cases p.turn size names with
  | resized _ h_eq | done _ h_eq | surplus _ _ h_eq =>
    rw [h_eq]
  | @stopped _ e _ _ _ _ _ _ h_pass h_eq =>
    -- the pass made its calls up to the one that stopped it
    have h_prefix := history_prefix_pass hn e
    rw [h_eq]
    rwa [h_pass] at h_prefix
  | @goes q names' h_step h_left _ h_eq =>
    have h_dec : q.left < p.left := by omega
    rw [h_eq]
    exact (h_step.history_prefix hn).trans (history_prefix_walk (h_step.nameable hn) names')
termination_by p.left

/-- The handlers enabled when the walk sends a schema through them have the method for it. -/
def Equipped (size : Nat) (p : WalkPoint) : Prop :=
  ∀ q k body, p.Meets size q k body → ∀ h ∈ q.session.handlers, h.Answers .schema

/-- So it is if all handlers have both methods, and bring in only such handlers. -/
theorem equipped_of_complete
    (h_complete : ∀ h ∈ p.session.handlers, h.Complete ∧ h.BringsComplete)
    (hn : ∀ h ∈ p.session.handlers, h.Nameable) : p.Equipped size := by
  -- what holds of the enabled handlers and passes on to new ones holds wherever the walk gets
  have h_all : ∀ q, p.Reaches size q →
      ∀ h ∈ q.session.handlers, h.Nameable ∧ h.Complete ∧ h.BringsComplete := by
    intro q hq
    induction hq with
    | refl => exact fun h hh => ⟨hn h hh, h_complete h hh⟩
    | tail _ h_step ih =>
      cases h_step with
      | ignores => exact ih
      | dispatches _ _ _ h_pass =>
        obtain rfl := eq_afterPass (fun h hh => (ih h hh).1) h_pass
        refine forall_handlers_afterPass (Q := fun h => h.Nameable ∧ h.Complete
          ∧ h.BringsComplete) (fun hh hb => ⟨hb.nameable, hb.complete hh.2.2, ?_⟩) ih _
        exact hb.always Handler.IsCms.brings hh.2.2
  exact fun q k body h_meets h hh => (h_all q h_meets.1 h hh).2.1 .schema

/-- A walk none of whose calls aborts is a quiet one, if the handlers can be called. -/
theorem quiet_of_noneAborts (hn : ∀ h ∈ p.session.handlers, h.Nameable) (names : Entries)
    (h_equipped : p.Equipped size)
    (h_calls : NoneAborts (callsSince p.session (p.walk size names).1)) : p.Quiet size := by
  -- a pass that a fault ends would end the walk as well
  intro q hq j e h_left h_size h_next h_map
  obtain ⟨h_history, -, h_names⟩ := hq.prefixes hn
  have h_answer : ∀ h ∈ q.session.handlers, h.Answers .schema :=
    h_equipped q e.1 e.2 ⟨hq, ⟨j, h_next⟩, h_map⟩
  by_contra h_some
  obtain ⟨f, hf⟩ := Option.ne_none_iff_exists'.mp h_some
  -- the call that aborted is then on the record of the walk
  obtain ⟨names', h_eq⟩ := walk_eq hq names
  have h_stop : q.walk size names' = ((q.pass e).1, .error f) := by
    obtain ⟨i, left, s⟩ := q
    obtain ⟨l, rfl⟩ := Nat.exists_eq_succ_of_ne_zero h_left
    exact Session.walk_of_fault h_size h_next h_map (Prod.ext rfl hf)
  rw [h_eq, h_stop] at h_calls
  refine h_some ((pass_returns_iff (s := q.session.enter e.1) h_names fun i hi => ?_).mpr h_answer)
  exact h_calls i (callsSince_subset h_history _ hi)

/-- A walk that returns had the methods for all calls. -/
theorem equipped_of_undisturbed (hn : ∀ h ∈ p.session.handlers, h.Nameable)
    (h_quiet : p.Quiet size) (h_undisturbed : p.Undisturbed size) : p.Equipped size := by
  intro q k body h_meets
  obtain ⟨hq, ⟨j, h_next⟩, h_map⟩ := h_meets
  obtain ⟨-, -, h_names⟩ := hq.prefixes hn
  have h_left : q.left ≠ 0 := fun h_zero => by
    rw [h_undisturbed.ended q hq h_zero] at h_next
    cases h_next
  exact answers_of_pass_none (s := q.session.enter k) h_names
    (h_quiet q hq j (k, body) h_left (h_undisturbed.sized q hq) h_next h_map)

/-- A walk none of whose calls aborts and that does not return has met a disturbed mapping, or a
handler without the method for its call. -/
theorem fault_cases {p : WalkPoint} (hn : ∀ h ∈ p.session.handlers, h.Nameable) {names : Entries}
    (h_calls : NoneAborts (callsSince p.session (p.walk size names).1)) {f : Fault}
    (hf : (p.walk size names).2 = .error f) :
    f = .sizeChanged ∨ f = .keysChanged
      ∨ ∃ h ∈ (p.walk size names).1.handlers, h.missing .schema = some f := by
  cases p.turn size names with
  | resized _ h_eq =>
    rw [h_eq] at hf
    exact .inl (Except.error.inj hf).symm
  | done _ h_eq =>
    rw [h_eq] at hf
    cases hf
  | surplus _ _ h_eq =>
    rw [h_eq] at hf
    exact .inr (.inl (Except.error.inj hf).symm)
  | @stopped j e t f' _ _ _ _ h_pass h_eq =>
    rw [h_eq] at hf h_calls ⊢
    obtain rfl : f' = f := Except.error.inj hf
    have h_fault : (p.pass e).2 = some f' := congrArg Prod.snd h_pass
    obtain rfl : (p.pass e).1 = t := congrArg Prod.fst h_pass
    rcases pass_fault_cases (s := p.session.enter e.1) hn h_fault with
      ⟨i, hi, h_abort⟩ | ⟨h, hh, h_missing⟩
    · exact absurd h_abort (h_calls i hi f')
    · have h_extends := extends_pass (s := p.session.enter e.1) hn (.schema e.1 e.2)
      exact .inr (.inr ⟨h, h_extends.handlers.subset hh, h_missing⟩)
  | @goes q names' h_step h_left _ h_eq =>
    have h_dec : q.left < p.left := by omega
    rw [h_eq] at hf h_calls ⊢
    refine fault_cases (h_step.nameable hn) (fun i hi => h_calls i ?_) hf
    exact callsSince_subset (h_step.history_prefix hn) _ hi
termination_by p.left

/-- The calls of a step are those for the schema at hand. -/
theorem Step.calls (hn : ∀ h ∈ p.session.handlers, h.Nameable) (h_step : Step size p q)
    {i : Invocation} (hi : i ∈ callsSince p.session q.session) :
    ∃ k body, p.Meets size p k body ∧ i.call = .schema k body := by
  cases h_step with
  | ignores => exact absurd hi not_mem_callsSince_self
  | @dispatches _ j _ s t e _ h_next h_map h_pass =>
    refine ⟨e.1, e.2, ⟨.refl, ⟨j, h_next⟩, h_map⟩, pass_calls (s := s.enter e.1) hn ?_⟩
    change i ∈ callsSince s ((s.enter e.1).applySchema e.1 e.2).1
    rwa [h_pass]

/-- **Every call of a walk** is one for a schema that the walk met. -/
theorem walk_calls {p : WalkPoint} (hn : ∀ h ∈ p.session.handlers, h.Nameable) {names : Entries}
    {i : Invocation} (hi : i ∈ callsSince p.session (p.walk size names).1) :
    ∃ q k body, p.Meets size q k body ∧ i.call = .schema k body := by
  cases p.turn size names with
  | resized _ h_eq | done _ h_eq | surplus _ _ h_eq =>
    rw [h_eq] at hi
    exact absurd hi not_mem_callsSince_self
  | @stopped j e t f _ _ h_next h_map h_pass h_eq =>
    -- also a pass that a fault ends has made calls
    refine ⟨p, e.1, e.2, ⟨.refl, ⟨j, h_next⟩, h_map⟩, pass_calls (s := p.session.enter e.1) hn ?_⟩
    change i ∈ callsSince p.session (p.pass e).1
    rw [h_eq] at hi
    rwa [h_pass]
  | @goes q names' h_step h_left _ h_eq =>
    have h_dec : q.left < p.left := by omega
    have h_names := h_step.nameable hn
    -- the call was made in this step, or later
    rw [h_eq] at hi
    rcases mem_callsSince_split (h_step.history_prefix hn)
      (history_prefix_walk h_names names') hi with hi | hi
    · obtain ⟨k, body, h_meets, h_call⟩ := h_step.calls hn hi
      exact ⟨p, k, body, h_meets, h_call⟩
    · obtain ⟨r, k, body, ⟨h_reach, h_meets⟩, h_call⟩ := walk_calls h_names hi
      exact ⟨r, k, body, ⟨h_reach.head h_step, h_meets⟩, h_call⟩
termination_by p.left

/-- **Every schema met is dispatched.** In a walk that returns, a schema that the walk meets is one
for which all handlers enabled at that time are called. -/
theorem called_of_meets (hn : ∀ h ∈ p.session.handlers, h.Nameable) (h_quiet : p.Quiet size)
    (h_undisturbed : p.Undisturbed size) {k body : Value} (h_meets : p.Meets size q k body)
    (names : Entries) {h : Handler} (hh : h ∈ q.session.handlers) :
    ∃ i ∈ callsSince p.session (p.walk size names).1, i.handler = h ∧ i.call = .schema k body := by
  obtain ⟨hq, ⟨j, h_next⟩, h_map⟩ := h_meets
  obtain ⟨h_history, -, h_names⟩ := hq.prefixes hn
  have h_size : q.table.size = size := h_undisturbed.sized q hq
  have h_left : q.left ≠ 0 := fun h_zero => by
    rw [h_undisturbed.ended q hq h_zero] at h_next
    cases h_next
  -- the pass at `q` returns, so its record is complete
  have h_returns : q.session.Returns (.schema k body) :=
    h_quiet q hq j (k, body) h_left h_size h_next h_map
  have h_pass := pass_eq_afterPass h_names h_returns
  obtain ⟨i, hi, h_handler, h_call⟩ :=
    mem_passLog (q.session.passStart (.schema k body)) (.schema k body) hh
  refine ⟨i, ?_, h_handler, h_call⟩
  have hi' : i ∈ callsSince q.session (q.session.afterPass (.schema k body)) := by
    unfold callsSince afterPass
    rw [afterCalls_history, passStart_history, List.drop_left]
    exact hi
  -- and the walk goes on from there, adding to it
  obtain ⟨names', h_eq⟩ := walk_eq hq names
  obtain ⟨i', left, s⟩ := q
  obtain ⟨l, rfl⟩ := Nat.exists_eq_succ_of_ne_zero h_left
  have h_step : Step size ⟨i', l + 1, s⟩ ⟨j, l, s.afterPass (.schema k body)⟩ :=
    .dispatches h_size h_next h_map h_pass
  obtain ⟨names'', h_eq'⟩ := walk_eq (.single h_step) names'
  rw [h_eq, h_eq']
  exact mem_callsSince_mono h_history (history_prefix_walk (h_step.nameable h_names) names'') hi'

/-- Nothing disturbs the walk, and it meets every key that holds a mapping at its start. -/
def MeetsAll (size : Nat) (p : WalkPoint) : Prop :=
  p.Undisturbed size
    ∧ ∀ e ∈ p.table.entries, e.2.isMap = true → ∃ q body, p.Meets size q e.1 body

end WalkPoint

namespace Session

/-! ### What an operation promises -/

/-- Every handler enabled in the earlier session has been called for the schema `k` since. -/
def Dispatched (s t : Session) (k : Value) : Prop :=
  ∀ h ∈ s.handlers, ∃ i ∈ callsSince s t, i.handler = h ∧ i.call.schemaName? = some k

/-- The operation returns, and has dispatched every key that held a mapping when its walk began. -/
def DispatchesAll (s : Session) (doc : Value) : Prop :=
  (∃ names, (s.applyComponents doc).2 = .ok names)
    ∧ ∀ e ∈ (s.walkStart doc).table.entries, e.2.isMap = true →
        Dispatched (s.docPass doc).1 (s.applyComponents doc).1 e.1

theorem docPass_nameable {s : Session} (hn : ∀ h ∈ s.handlers, h.Nameable) (doc : Value) :
    ∀ h ∈ (s.docPass doc).1.handlers, h.Nameable :=
  forall_nameable_pass (s := s.withSchemas (tableOf doc)) hn hn

theorem history_prefix_docPass {s : Session} (hn : ∀ h ∈ s.handlers, h.Nameable) (doc : Value) :
    s.history <+: (s.docPass doc).1.history :=
  history_prefix_pass (s := s.withSchemas (tableOf doc)) hn
    (.doc doc)

section Components

variable {s : Session} {doc : Value} (hn : ∀ h ∈ s.handlers, h.Nameable) (hctx : s.context.isSome)

include hctx

/-- An operation that returns has got through the pass for the document. -/
theorem docPass_none_of_returns (h_returns : ∃ names, (s.applyComponents doc).2 = .ok names) :
    (s.docPass doc).2 = none := by
  obtain ⟨names, h_ok⟩ := h_returns
  refine Option.eq_none_iff_forall_ne_some.mpr fun f hf => ?_
  rw [applyComponents_of_fault hctx hf] at h_ok
  cases h_ok

include hn

/-- What is dispatched is what the walk meets. -/
theorem dispatched_iff_meets (h_doc : (s.docPass doc).2 = none)
    (h_quiet : (s.walkStart doc).Quiet (s.walkStart doc).left)
    (h_undisturbed : (s.walkStart doc).Undisturbed (s.walkStart doc).left) :
    (∀ e ∈ (s.walkStart doc).table.entries, e.2.isMap = true →
        Dispatched (s.docPass doc).1 (s.applyComponents doc).1 e.1)
      ↔ ∀ e ∈ (s.walkStart doc).table.entries, e.2.isMap = true →
          ∃ q body, (s.walkStart doc).Meets (s.walkStart doc).left q e.1 body := by
  have h_names := docPass_nameable hn doc
  have h_history := (applyComponents_of_none hctx h_doc).2 Session.history (fun _ _ => rfl)
    fun _ _ => rfl
  have h_since : callsSince (s.docPass doc).1 (s.applyComponents doc).1
      = callsSince (s.docPass doc).1 (s.schemaWalk doc).1 := by
    unfold callsSince
    rw [h_history]
  constructor
  · intro h_all e he h_map
    by_cases h_none : (s.docPass doc).1.handlers = []
    · -- without handlers the history is silent, but then nobody edits the schemas either
      have h_tame : ∀ h ∈ (s.docPass doc).1.handlers, h.Tame := by
        rw [h_none]
        exact List.forall_mem_nil _
      exact (WalkPoint.undisturbed_of_outline h_quiet
        (WalkPoint.keepsOutline_of_tame h_tame) rfl rfl).2 e he h_map
    · -- one of the handlers has a call for the key, and the walk made it for a schema it met
      obtain ⟨h, hh⟩ := List.exists_mem_of_ne_nil _ h_none
      obtain ⟨i, hi, -, h_key⟩ := h_all e he h_map h hh
      rw [h_since] at hi
      obtain ⟨q, k, body, h_meets, h_call⟩ := WalkPoint.walk_calls (p := s.walkStart doc) h_names hi
      rw [h_call] at h_key
      obtain rfl : k = e.1 := Option.some.inj h_key
      exact ⟨q, body, h_meets⟩
  · -- a handler enabled at the start of the walk still is when the walk meets the schema
    intro h_meets e he h_map h hh
    obtain ⟨q, body, h_q⟩ := h_meets e he h_map
    have hh' : h ∈ q.session.handlers :=
      (WalkPoint.Reaches.prefixes (p := s.walkStart doc) h_names h_q.1).2.1.subset hh
    obtain ⟨i, hi, h_handler, h_call⟩ :=
      WalkPoint.called_of_meets h_names h_quiet h_undisturbed h_q [] hh'
    refine ⟨i, ?_, h_handler, ?_⟩
    · rw [h_since]
      exact hi
    · rw [h_call]
      rfl

omit hctx in
/-- With both methods in every handler, the walk over the schemas is equipped. -/
theorem equipped_walkStart (h_complete : ∀ h ∈ s.handlers, h.Complete ∧ h.BringsComplete) :
    (s.walkStart doc).Equipped (s.walkStart doc).left := by
  -- the handlers brought in by the pass for the document have their methods, too
  have h_all : ∀ h ∈ (s.docPass doc).1.handlers, h.Complete ∧ h.BringsComplete :=
    forall_handlers_pass (s := s.withSchemas (tableOf doc))
      (fun hh hb => ⟨hb.complete hh.2, hb.always Handler.IsCms.brings hh.2⟩) hn h_complete
      h_complete
  exact WalkPoint.equipped_of_complete h_all (docPass_nameable hn doc)

variable (h_calls : NoneAborts (callsSince s (s.applyComponents doc).1))

include h_calls

/-- The pass for the document returns if its handlers can be called. -/
theorem docPass_returns_iff : (s.docPass doc).2 = none ↔ ∀ h ∈ s.handlers, h.Answers .doc := by
  refine ⟨answers_of_pass_none (s := s.withSchemas (tableOf doc)) hn, fun h_answer => ?_⟩
  refine Option.eq_none_iff_forall_ne_some.mpr fun f hf => ?_
  -- if a fault ended it, the operation would have made no other calls
  rw [applyComponents_of_fault hctx hf] at h_calls
  have h_none : (s.docPass doc).2 = none :=
    (pass_returns_iff (s := s.withSchemas (tableOf doc)) hn h_calls).mpr h_answer
  rw [h_none] at hf
  cases hf

/-- None of the calls of the walk aborts, either. -/
theorem noneAborts_schemaWalk (h_doc : (s.docPass doc).2 = none) :
    NoneAborts (callsSince (s.docPass doc).1 (s.schemaWalk doc).1) := by
  have h_history := (applyComponents_of_none hctx h_doc).2 Session.history (fun _ _ => rfl)
    fun _ _ => rfl
  intro i hi
  refine h_calls i (mem_callsSince_mono (history_prefix_docPass hn doc) ?_ hi)
  rw [h_history]

/-- **When every schema is dispatched.** The operation returns with every schema dispatched if and
only if its handlers have the methods for their calls, and its walk is undisturbed and meets every
key that held a mapping at its start. -/
theorem dispatchesAll_iff :
    s.DispatchesAll doc ↔ (∀ h ∈ s.handlers, h.Answers .doc)
      ∧ (s.walkStart doc).Equipped (s.walkStart doc).left
      ∧ (s.walkStart doc).MeetsAll (s.walkStart doc).left := by
  have h_names := docPass_nameable hn doc
  constructor
  · rintro ⟨h_returns, h_all⟩
    have h_doc := docPass_none_of_returns hctx h_returns
    rw [(applyComponents_of_none hctx h_doc).1] at h_returns
    obtain ⟨names, h_ok⟩ := h_returns
    have h_quiet : (s.walkStart doc).Quiet (s.walkStart doc).left := WalkPoint.quiet_of_returns h_ok
    have h_undisturbed := (WalkPoint.returns_iff h_quiet []).mp ⟨names, h_ok⟩
    exact ⟨(docPass_returns_iff hn hctx h_calls).mp h_doc,
      WalkPoint.equipped_of_undisturbed h_names h_quiet h_undisturbed, h_undisturbed,
      (dispatched_iff_meets hn hctx h_doc h_quiet h_undisturbed).mp h_all⟩
  · rintro ⟨h_answer, h_equipped, h_undisturbed, h_meets⟩
    have h_doc := (docPass_returns_iff hn hctx h_calls).mpr h_answer
    have h_quiet : (s.walkStart doc).Quiet (s.walkStart doc).left :=
      WalkPoint.quiet_of_noneAborts h_names [] h_equipped
        (noneAborts_schemaWalk hn hctx h_calls h_doc)
    refine ⟨?_, (dispatched_iff_meets hn hctx h_doc h_quiet h_undisturbed).mpr h_meets⟩
    rw [(applyComponents_of_none hctx h_doc).1]
    exact (WalkPoint.returns_iff h_quiet []).mpr h_undisturbed

/-- If the operation does not return, a handler had no method for its call, or the mapping that the
operation walked was disturbed. -/
theorem fault_of_noneAborts {f : Fault} (hf : (s.applyComponents doc).2 = .error f) :
    f = .sizeChanged ∨ f = .keysChanged
      ∨ ∃ h ∈ (s.applyComponents doc).1.handlers, ∃ scope, h.missing scope = some f := by
  cases h_doc : (s.docPass doc).2 with
  | some g =>
    rw [applyComponents_of_fault hctx h_doc] at hf h_calls ⊢
    obtain rfl : g = f := Except.error.inj hf
    rcases pass_fault_cases (s := s.withSchemas (tableOf doc)) hn h_doc with
      ⟨i, hi, h_abort⟩ | ⟨h, hh, h_missing⟩
    · exact absurd h_abort (h_calls i hi g)
    · have h_extends := extends_pass (s := s.withSchemas (tableOf doc)) hn (.doc doc)
      exact .inr (.inr ⟨h, h_extends.handlers.subset hh, .doc, h_missing⟩)
  | none =>
    obtain ⟨h_answer, h_view⟩ := applyComponents_of_none hctx h_doc
    have h_handlers := h_view Session.handlers (fun _ _ => rfl) fun _ _ => rfl
    rw [h_answer] at hf
    rw [h_handlers]
    have h_cases := WalkPoint.fault_cases (p := s.walkStart doc) (docPass_nameable hn doc)
      (noneAborts_schemaWalk hn hctx h_calls h_doc) hf
    exact h_cases.imp_right fun h_other => h_other.imp_right fun ⟨h, hh, h_missing⟩ =>
      ⟨h, hh, .schema, h_missing⟩

/-- With both methods in every handler, replacing schemas disturbs nothing, mappings being put in
place of mappings. -/
theorem dispatchesAll_of_keepsOutline
    (h_complete : ∀ h ∈ s.handlers, h.Complete ∧ h.BringsComplete)
    (h_keeps : (s.walkStart doc).KeepsOutline (s.walkStart doc).left) : s.DispatchesAll doc := by
  have h_answer : ∀ h ∈ s.handlers, h.Answers .doc := fun h hh => (h_complete h hh).1 .doc
  have h_doc := (docPass_returns_iff hn hctx h_calls).mpr h_answer
  have h_equipped : (s.walkStart doc).Equipped (s.walkStart doc).left :=
    equipped_walkStart hn h_complete
  have h_quiet : (s.walkStart doc).Quiet (s.walkStart doc).left :=
    WalkPoint.quiet_of_noneAborts (docPass_nameable hn doc) [] h_equipped
      (noneAborts_schemaWalk hn hctx h_calls h_doc)
  exact (dispatchesAll_iff hn hctx h_calls).mpr
    ⟨h_answer, h_equipped, WalkPoint.undisturbed_of_outline h_quiet h_keeps rfl rfl⟩

end Components

/-- Two handlers: one fails whenever it is called, the other takes the schema `A` out of the
document. -/
def erasing : Session :=
  { registry :=
      [.failing (.text "broken") [.doc, .schema] (.raised .runtime "down"),
       .editing (.text "eraser") [.schema] none ["A"] []] }

/-- A document with one schema, called `A`. -/
def oneSchema : Value :=
  .map [(.text "components", .map [(.text "schemas", .map [(.text "A", .map [])])])]

theorem erasing_nameable : ∀ h ∈ erasing.handlers, h.Nameable := by
  intro h hh
  have h_reg : h ∈ erasing.registry := (List.mem_filter.mp hh).1
  rcases List.mem_pair.mp h_reg with rfl | rfl
  · exact Handler.nameable_of_text rfl
  · exact Handler.nameable_of_text rfl

/-- Both have both methods, and neither registers anything. -/
theorem erasing_complete : ∀ h ∈ erasing.handlers, h.Complete ∧ h.BringsComplete := by
  intro h hh
  have h_reg : h ∈ erasing.registry := (List.mem_filter.mp hh).1
  rcases List.mem_pair.mp h_reg with rfl | rfl
  · exact ⟨fun _ => rfl, (Handler.tame_failing "broken" _ _).brings⟩
  · refine ⟨fun _ => rfl, Handler.bringsComplete_of_registersNone fun _ call context => ?_⟩
    cases call with
    | doc _ => exact List.forall_mem_nil _
    | schema _ _ => exact List.forall_mem_singleton.mpr fun _ => nofun

/-- No call aborts, and yet the operation does not return. -/
theorem erasing_applyComponents :
    (erasing.applyComponents oneSchema).2 = .error .sizeChanged
      ∧ NoneAborts (callsSince erasing (erasing.applyComponents oneSchema).1) := by
  have h_endings : (callsSince erasing (erasing.applyComponents oneSchema).1).map
      (fun i => i.ending) = [.failed (.raised .runtime "down"), .returned,
        .failed (.raised .runtime "down"), .returned] := by
    unfold applyComponents
    unfold walk
    unfold walk
    rfl
  refine ⟨?_, noneAborts_of_endings h_endings (by simp)⟩
  unfold applyComponents
  unfold walk
  unfold walk
  rfl

/-- A handler that works, and one with a name and nothing else, which a registry takes in as
well. -/
def halfEquipped : Session :=
  { registry := [.idle (.text "whole"), .partly "Named" (.text "name only") []] }

theorem halfEquipped_nameable : ∀ h ∈ halfEquipped.handlers, h.Nameable := by
  intro h hh
  have h_reg : h ∈ halfEquipped.registry := (List.mem_filter.mp hh).1
  rcases List.mem_pair.mp h_reg with rfl | rfl
  · exact Handler.nameable_of_text rfl
  · exact Handler.nameable_of_text rfl

theorem halfEquipped_lacks (scope : Scope) : ¬ ∀ h ∈ halfEquipped.handlers, h.Answers scope := by
  intro h_answers
  have h_mem : Handler.partly "Named" (.text "name only") [] ∈ halfEquipped.handlers :=
    List.mem_of_mem_getLast? rfl
  cases h_answers _ h_mem

end Session

end SchemaNaming
