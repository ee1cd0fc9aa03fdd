import SchemaNaming.Proofs.Dispatch.Books

/-!
# Handlers that only fail

A handler that fails at once, whenever it is called, leaves nothing behind but its warnings and its
entries in the counters. To the other handlers, and to whoever asks for the operation, it might as
well not be registered.

The comparison is between a session and the one in which such handlers are taken out of the registry
(`Session.without`). They are told by their serial numbers, which no two registered handlers share,
so that any choice of them can be made (`Session.exists_removable`). The two runs stay in
`Session.Mirrors`: the second registry is a part of the first, and of the calls made so far the
second run has exactly those of the handlers that are still there.

* `Session.Mirrors.congruence` — the effects of a handler keep the two runs together. A handler that
  is registered on the way comes under the same number in both, and it is none of those taken out;
* `Session.mirrors_lockstep` — so do the calls: both runs make the call, or the first makes it and
  it fails at once;
* `Session.failing_transparent` — what the two operations then have in common, and what they have
  not.
-/

namespace SchemaNaming

namespace Session

/-- The session without the handlers whose serial numbers are `gone`. -/
def without (gone : Nat → Bool) (s : Session) : Session :=
  { s with registry := s.registry.filter fun h => !gone h.serial }

/-- The handlers whose serial numbers are `gone` may go: each fails at once, whenever it is called.
Numbers that are still to be given are not among those. -/
structure Removable (gone : Nat → Bool) (s : Session) : Prop where
  named : s.registry.AllNamed
  fails : ∀ h ∈ s.registry, gone h.serial = true → h.FailsAtOnce
  unused : ∀ n, s.nextSerial ≤ n → gone n = false

/-- The call is one of a handler that stays. -/
def Stays (gone : Nat → Bool) (i : Invocation) : Bool := !gone i.handler.serial

/-- Two runs after the same `past`: the second does without the handlers whose serial numbers are
`gone`, and otherwise its state is that of the first. -/
structure Mirrors (gone : Nat → Bool) (past : List Invocation) (s t : Session) : Prop
    extends Removable gone s where
  registry : t.registry = s.registry.filter fun h => !gone h.serial
  shippedName : t.shippedName = s.shippedName
  config : t.config = s.config
  context : t.context = s.context
  schemas : t.schemas = s.schemas
  nextSerial : t.nextSerial = s.nextSerial
  log : ∃ log, s.history = past ++ log ∧ t.history = past ++ log.filter (Stays gone)
    ∧ ∀ i ∈ log, gone i.handler.serial = true → ∃ f, i.ending = .failed f

variable {gone : Nat → Bool} {past : List Invocation} {s t : Session}

theorem Removable.mirrors (h : s.Removable gone) : Mirrors gone s.history s (s.without gone) where
  toRemovable := h
  registry := rfl
  shippedName := rfl
  config := rfl
  context := rfl
  schemas := rfl
  nextSerial := rfl
  log := ⟨[], (List.append_nil _).symm, (List.append_nil _).symm, List.forall_mem_nil _⟩

/-- Any of the handlers that a session has registered may go, if each of them fails at once. -/
theorem exists_removable {steps : List Step} (h_steps : ∀ step ∈ steps, step.KeepsNames)
    (hs : s ∈ points {} steps) {chosen : Handler → Bool}
    (h_fails : ∀ h ∈ s.registry, chosen h = true → h.FailsAtOnce) :
    ∃ gone, s.Removable gone
      ∧ (s.without gone).registry = s.registry.filter fun h => !chosen h := by
  have h_numbered : s.registry.Numbered s.nextSerial :=
    Registry.numbered_invariant.points (Registry.numbered_invariant.empty 0) h_steps s hs
  obtain ⟨gone, h_unused, h_chosen⟩ := h_numbered.choose chosen
  refine ⟨gone, ⟨h_numbered.named, fun h hh h_gone => ?_, h_unused⟩, ?_⟩
  · rw [h_chosen h hh] at h_gone
    exact h_fails h hh h_gone
  · exact List.filter_congr fun h hh => by rw [h_chosen h hh]

namespace Mirrors

/-! ### Effects -/

/-- A handler that stays is called as often in either run. -/
theorem callsOf (h : Mirrors gone past s t) {serial : Nat} (h_stays : gone serial = false) :
    t.callsOf serial = s.callsOf serial := by
  obtain ⟨log, h_s, h_t, -⟩ := h.log
  have h_same : ∀ i : Invocation,
      (decide (i.handler.serial = serial) && Stays gone i)
        = decide (i.handler.serial = serial) := by
    intro i
    by_cases h_eq : i.handler.serial = serial
    · simp [Stays, h_eq, h_stays]
    · simp [h_eq]
  unfold Session.callsOf
  rw [h_s, h_t, List.countP_append, List.countP_append, List.countP_filter]
  simp only [h_same]

/-- What is registered under the next number stays, in both runs. -/
theorem enrol (h : Mirrors gone past s t) (g : Handler) :
    (t.registry.enrol s.nextSerial g).1
      = (s.registry.enrol s.nextSerial g).1.filter fun h => !gone h.serial := by
  unfold Registry.enrol
  cases g.acceptedName? with
  | none => exact h.registry
  | some n =>
    have h_new : [{ g with serial := s.nextSerial }].filter (fun h => !gone h.serial)
        = [{ g with serial := s.nextSerial }] :=
      List.filter_cons_of_pos (by simp [h.unused s.nextSerial (Nat.le_refl _)])
    dsimp only
    rw [List.filter_append, h_new, h.registry]

theorem offer (h : Mirrors gone past s t) (c : Candidate) :
    (t.registry.offer t.nextSerial t.shippedName c).1
      = (s.registry.offer s.nextSerial s.shippedName c).1.filter fun h => !gone h.serial := by
  rw [h.nextSerial, h.shippedName]
  cases c with
  | absent | nameless => exact h.registry
  | handler g => exact h.enrol g
  | shipped => exact h.enrol _

theorem register (h : Mirrors gone past s t) (c : Candidate) :
    Mirrors gone past (s.register c) (t.register c) where
  named := Registry.allNamed_invariant.offer s.shippedName c h.named
  fails := by
    change ∀ g ∈ (s.registry.offer s.nextSerial s.shippedName c).1, _
    rcases s.registry.offer_cases s.nextSerial s.shippedName c with h_eq | ⟨f, -, h_serial, h_eq⟩
    · rw [h_eq]
      exact h.fails
    · -- the next number is none of those that may go
      rw [h_eq]
      refine List.forall_mem_append.mpr ⟨h.fails, List.forall_mem_singleton.mpr fun h_gone => ?_⟩
      rw [h_serial, h.unused _ (Nat.le_refl _)] at h_gone
      cases h_gone
  unused n hn := h.unused n (Nat.le_of_succ_le hn)
  registry := h.offer c
  shippedName := h.shippedName
  config := h.config
  context := h.context
  schemas := h.schemas
  nextSerial := congrArg (· + 1) h.nextSerial
  log := h.log

theorem setContext (h : Mirrors gone past s t) (context : Option Context) :
    Mirrors gone past { s with context } { t with context } :=
  { h with context := rfl }

theorem withSchemas (h : Mirrors gone past s t) (u : Option SchemaTable) :
    Mirrors gone past (s.withSchemas u) (t.withSchemas u) :=
  { h with schemas := rfl }

/-- The two runs need not report the same. -/
theorem notify (h : Mirrors gone past s t) (n m : Notice) :
    Mirrors gone past (s.notify n) (t.notify m) :=
  { h with }

/-- **Effects** do the same in both runs. -/
theorem congruence : Congruence (Mirrors gone past) where
  context h := h.context
  schemas h := h.schemas
  setContext c h := h.setContext c
  withSchemas u h := h.withSchemas u
  register c h := h.register c

/-! ### Calls -/

theorem note (h : Mirrors gone past s t) {i : Invocation} (hi : gone i.handler.serial = false) :
    Mirrors gone past (s.note i) (t.note i) := by
  obtain ⟨log, h_s, h_t, h_failed⟩ := h.log
  refine { h with log := ⟨log ++ [i], ?_, ?_, ?_⟩ }
  · unfold Session.note
    rw [h_s, List.append_assoc]
  · have h_one : [i].filter (Stays gone) = [i] :=
      List.filter_cons_of_pos (by simp [Stays, hi])
    unfold Session.note
    rw [h_t, List.filter_append, h_one, List.append_assoc]
  · intro j hj h_gone
    rcases List.mem_append.mp hj with hj | hj
    · exact h_failed j hj h_gone
    · rw [List.mem_singleton.mp hj, hi] at h_gone
      cases h_gone

/-- A call that only the first run makes. -/
theorem note_gone (h : Mirrors gone past s t) {i : Invocation} (hi : gone i.handler.serial = true)
    (h_failed : ∃ f, i.ending = .failed f) : Mirrors gone past (s.note i) t := by
  obtain ⟨log, h_s, h_t, h_old⟩ := h.log
  refine { h with log := ⟨log ++ [i], ?_, ?_, ?_⟩ }
  · unfold Session.note
    rw [h_s, List.append_assoc]
  · have h_none : [i].filter (Stays gone) = [] :=
      List.filter_cons_of_neg (by simp [Stays, hi])
    rw [h_t, List.filter_append, h_none, List.append_nil]
  · intro j hj h_gone
    rcases List.mem_append.mp hj with hj | hj
    · exact h_old j hj h_gone
    · rwa [List.mem_singleton.mp hj]

theorem book (h : Mirrors gone past s t) (g : Handler) (call : Call) (ending : Ending) :
    Mirrors gone past (s.book g call ending) (t.book g call ending) := by
  cases ending <;> exact { h with }

theorem book_gone (h : Mirrors gone past s t) (g : Handler) (call : Call) (ending : Ending) :
    Mirrors gone past (s.book g call ending) t := by
  cases ending <;> exact { h with }

/-- **A call in both runs.** -/
theorem afterCall (h : Mirrors gone past s t) {g : Handler} (call : Call)
    (hg : gone g.serial = false) :
    Mirrors gone past (s.afterCall g call) (t.afterCall g call)
      ∧ t.endingOf g call = s.endingOf g call := by
  -- the handler sees the same in both runs, and so it does the same
  obtain ⟨h_reaction, h_fault⟩ :=
    congruence.performAll h (g.react (s.callsOf g.serial) call s.context)
  have h_react : t.reaction g call
      = t.performAll (g.react (s.callsOf g.serial) call s.context) := by
    unfold reaction
    rw [h.callsOf hg, h.context]
  have h_ending : t.endingOf g call = s.endingOf g call := by
    unfold endingOf
    rw [h_react, h_fault]
    rfl
  refine ⟨?_, h_ending⟩
  unfold Session.afterCall
  rw [h_ending, h_react, h.context]
  exact (h_reaction.note (i := ⟨g, call, s.context, s.endingOf g call⟩) hg).book g call _

/-- **A call in the first run** that fails at once changes nothing but the books. -/
theorem afterCall_gone (h : Mirrors gone past s t) {g : Handler} (call : Call)
    (hg : gone g.serial = true) (h_fails : g.FailsAtOnce) :
    Mirrors gone past (s.afterCall g call) t := by
  obtain ⟨f, h_reaction, -⟩ := reaction_of_failsAtOnce h_fails s call
  unfold Session.afterCall
  rw [h_reaction]
  exact (h.note_gone (i := ⟨g, call, s.context, s.endingOf g call⟩) hg
    (endingOf_of_failsAtOnce h_fails s call)).book_gone g call _

theorem handlers (h : Mirrors gone past s t) :
    t.handlers = s.handlers.filter fun g => !gone g.serial := by
  unfold Session.handlers activeConfig
  rw [h.registry, h.config, List.filter_filter, List.filter_filter]
  simp only [Bool.and_comm]

end Mirrors

theorem mirrors_lockstep (gone : Nat → Bool) (past : List Invocation) :
    Passwise (Mirrors gone past) := by
  have h_lockstep : Lockstep (fun h => gone h.serial) (Mirrors gone past) := {
    context := fun h => h.context
    schemas := fun h => h.schemas
    handlers := fun h => h.handlers
    nameable := fun h g hg => (Registry.allNamed_invariant.handlers h.named g hg).nameable
    fails := fun h g hg => h.fails g (List.mem_filter.mp hg).1
    enter := fun name h => Mirrors.congruence.enter h name
    withSchemas := fun u h => h.withSchemas u
    notify := fun n _ h => h.notify n n
    call := fun call h _ h_stays => h.afterCall call h_stays
    skip := fun call h _ h_gone h_fails => h.afterCall_gone call h_gone h_fails }
  exact h_lockstep.passwise

/-! ### Operations -/

/-- What an operation does in a session, `a`, and in the session without the handlers that may go,
`b`. The two answer alike and leave the same context, and the second makes the calls of the handlers
that stay, each of which is the same call as in the first. The books differ by the calls of the
other handlers, all of which failed: each stands for one more count, under the handler's own label,
and for one more warning. -/
structure Transparent {α : Type} (gone : Nat → Bool) (s : Session) (a b : Session × α) : Prop where
  answer : b.2 = a.2
  context : b.1.context = a.1.context
  calls : callsSince (s.without gone) b.1 = (callsSince s a.1).filter (Stays gone)
  failed : ∀ i ∈ callsSince s a.1, gone i.handler.serial = true → ∃ f, i.ending = .failed f
  returns : ∀ label scope,
    a.1.tally.count ⟨label, scope, .ok⟩ = b.1.tally.count ⟨label, scope, .ok⟩
  failures : ∀ label scope,
    a.1.tally.count ⟨label, scope, .error⟩ = b.1.tally.count ⟨label, scope, .error⟩
      + (callsSince s a.1).countP fun i =>
          gone i.handler.serial && i.handler.countedAs label && i.call.scope = scope
  warnings : a.1.warnings = s.warnings ++ (callsSince s a.1).filterMap (·.warning?)
  warnings_without : b.1.warnings
    = s.warnings ++ ((callsSince s a.1).filter (Stays gone)).filterMap (·.warning?)
  registry : b.1.registry = a.1.registry.filter fun h => !gone h.serial

/-- A failed call belongs to one counter for errors. -/
theorem countsFor_of_failed {i : Invocation} {f : Fault} (hi : i.ending = .failed f)
    (label : String) (scope : Scope) :
    i.countsFor ⟨label, scope, .ok⟩ = false
      ∧ i.countsFor ⟨label, scope, .error⟩
        = (i.handler.countedAs label && i.call.scope = scope) := by
  simp [Invocation.countsFor, hi, Ending.outcome?]

/-- The calls that count are those of the handlers that stay and those of the others. -/
theorem countP_split (gone : Nat → Bool) (log : List Invocation) (p : Invocation → Bool) :
    log.countP p = (log.filter (Stays gone)).countP p
      + log.countP fun i => gone i.handler.serial && p i := by
  have h_others : (log.filter fun i => !Stays gone i).countP p
      = log.countP fun i => gone i.handler.serial && p i := by
    rw [List.countP_filter]
    simp only [Stays, Bool.not_not, Bool.and_comm]
  rw [List.countP_eq_countP_filter_add log p (Stays gone), h_others]

/-- Two runs that stay together and keep their books are transparent. -/
theorem transparent_of_agree {α : Type} {a b : Session × α}
    (h_agree : Agree (Mirrors gone s.history) a b) (h_a : Booked s a.1)
    (h_b : Booked (s.without gone) b.1) : Transparent gone s a b := by
  obtain ⟨h_mirrors, h_answer⟩ := h_agree
  obtain ⟨log, h_log, h_log', h_failed⟩ := h_mirrors.log
  have h_calls : callsSince s a.1 = log := by
    unfold callsSince
    rw [h_log, List.drop_left]
  have h_calls' : callsSince (s.without gone) b.1 = log.filter (Stays gone) := by
    unfold callsSince
    rw [h_log']
    exact List.drop_left
  -- each counter, by the calls of the handlers that stay and by those of the others
  have h_counts : ∀ k, a.1.tally.count k = b.1.tally.count k
      + log.countP fun i => gone i.handler.serial && i.countsFor k := by
    intro k
    rw [h_a.counts, h_calls, countP_split gone, ← Nat.add_assoc, h_b.counts, h_calls']
    rfl
  refine ⟨h_answer, h_mirrors.context, ?_, ?_, fun label scope => ?_, fun label scope => ?_, ?_, ?_,
    h_mirrors.registry⟩
  · rw [h_calls', h_calls]
  · rwa [h_calls]
  · have h_none : log.countP (fun i => gone i.handler.serial && i.countsFor ⟨label, scope, .ok⟩)
        = 0 := by
      rw [List.countP_eq_zero]
      intro i hi h_count
      obtain ⟨h_gone, h_ok⟩ := Bool.and_eq_true_iff.mp h_count
      obtain ⟨f, hf⟩ := h_failed i hi h_gone
      rw [(countsFor_of_failed hf label scope).1] at h_ok
      cases h_ok
    rw [h_counts, h_none, Nat.add_zero]
  · rw [h_counts, h_calls]
    congr 1
    refine List.countP_congr fun i hi => ?_
    cases h_gone : gone i.handler.serial with
    | false => exact Iff.rfl
    | true =>
      obtain ⟨f, hf⟩ := h_failed i hi h_gone
      rw [(countsFor_of_failed hf label scope).2, Bool.and_assoc]
  · exact h_a.warnings
  · rw [h_b.warnings, h_calls', h_calls]
    rfl

theorem transparent_of_removable (h : s.Removable gone) :
    (∀ doc, Transparent gone s (s.applyDoc doc) ((s.without gone).applyDoc doc))
      ∧ (∀ name body,
          Transparent gone s (s.applySchema name body) ((s.without gone).applySchema name body))
      ∧ ∀ doc, Transparent gone s (s.applyComponents doc)
          ((s.without gone).applyComponents doc) := by
  have h_lockstep := mirrors_lockstep gone s.history
  have h_start : Mirrors gone s.history s (s.without gone) := h.mirrors
  have h_named : ∀ g ∈ s.handlers, g.Named := Registry.allNamed_invariant.handlers h.named
  have h_named' : ∀ g ∈ (s.without gone).handlers, g.Named := by
    rw [h_start.handlers]
    exact fun g hg => h_named g (List.mem_filter.mp hg).1
  refine ⟨fun doc => ?_, fun name body => ?_, fun doc => ?_⟩
  · exact transparent_of_agree (h_lockstep.applyDoc h_start doc) (along_booked.applyDoc h_named doc)
      (along_booked.applyDoc h_named' doc)
  · exact transparent_of_agree (h_lockstep.applySchema h_start name body)
      (along_booked.applySchema h_named name body) (along_booked.applySchema h_named' name body)
  · exact transparent_of_agree (h_lockstep.applyComponents h_start doc)
      (along_booked.applyComponents h_named doc) (along_booked.applyComponents h_named' doc)

/-- Two handlers that always fail, one of them without a name; between them one that registers a
guest, and behind them one that takes the schema `A` out of the document. -/
def crowded : Session :=
  { registry :=
      [.failing (.text "broken") [.doc, .schema] (.raised .runtime "down"),
       { Handler.registering (.text "host") [.doc] (.handler (.idle (.text "guest"))) with
          serial := 1 },
       { Handler.failing (.text "") [.doc, .schema] (.raised .key "k") with serial := 2 },
       { Handler.editing (.text "eraser") [.schema] none ["A"] [] with serial := 3 }]
    nextSerial := 4 }

/-- The serial numbers of the two handlers that fail. -/
def brokenOnes : Nat → Bool := fun n => n = 0 || n = 2

theorem crowded_removable : crowded.Removable brokenOnes where
  named := by
    simp [crowded, Registry.AllNamed, Handler.Named, Handler.failing, Handler.registering,
      Handler.editing, Handler.steady]
  fails := by
    intro h hh h_gone
    simp only [crowded, List.mem_cons, List.not_mem_nil, or_false] at hh
    rcases hh with rfl | rfl | rfl | rfl
    · exact Handler.failsAtOnce_failing (.text "broken") rfl
    · cases h_gone
    · have h_fails : (Handler.failing (.text "") [.doc, .schema] (.raised .key "k")).FailsAtOnce :=
        Handler.failsAtOnce_failing (.text "") rfl
      exact ⟨h_fails.complete, h_fails.fails⟩
    · cases h_gone
  unused n hn := by
    have h_next : 4 ≤ n := hn
    have h_first : n ≠ 0 := by omega
    have h_third : n ≠ 2 := by omega
    simp [brokenOnes, h_first, h_third]

end Session

end SchemaNaming
