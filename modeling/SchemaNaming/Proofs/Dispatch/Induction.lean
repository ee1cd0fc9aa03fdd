import SchemaNaming.Proofs.Dispatch.Containment

/-!
# Induction over an operation

An operation consists of calls. Between them the dispatcher resets the current name, sets up the
table of schemas, and reports what it has done. A relation that holds across each of these holds
across the operation. The induction — over the handlers of a pass and over the schemas of a walk —
is carried out here, once for a single run and once for two runs that are compared:

* `Session.Along` — a relation between an earlier and a later point of one run. It is reflexive and
  transitive, and holds across every call of an enabled handler (`Along.applyComponents`);
* `Session.Congruence` — a relation between two runs that a handler's effects preserve, as they meet
  the same context and the same schemas in both (`Congruence.performAll`);
* `Session.Passwise` — a relation between two runs that a pass preserves. The second walk then turns
  where the first does, and the two operations answer alike (`Passwise.applyComponents`);
* `Session.Lockstep` — a relation between two runs, the second of which has to do without some of
  the handlers. The handlers that both have are called in both, and the others fail at once, in the
  first run alone. That makes it one by passes (`Lockstep.passwise`).
-/

namespace SchemaNaming

namespace Handler

/-- The handler can be called, and whenever it is called it fails in an ordinary way. Before that it
does nothing. -/
structure FailsAtOnce (h : Handler) : Prop where
  complete : h.Complete
  fails : ∀ n call context, ∃ f rest,
    h.react n call context = .fail f :: rest ∧ f.contained = true

theorem failsAtOnce_failing (name : Value) {fault : Fault} (h_fault : fault.contained = true) :
    (failing name [.doc, .schema] fault).FailsAtOnce where
  complete := fun _ => rfl
  fails _ call _ := by
    refine ⟨fault, [], ?_, h_fault⟩
    cases call <;> rfl

end Handler

namespace Session

/-- The reaction of a handler that fails at once changes nothing. -/
theorem reaction_of_failsAtOnce {h : Handler} (hh : h.FailsAtOnce) (s : Session) (call : Call) :
    ∃ f, s.reaction h call = (s, some f) ∧ f.contained = true := by
  obtain ⟨f, rest, h_react, h_contained⟩ := hh.fails (s.callsOf h.serial) call s.context
  refine ⟨f, ?_, h_contained⟩
  rw [reaction, h_react]
  rfl

theorem endingOf_of_failsAtOnce {h : Handler} (hh : h.FailsAtOnce) (s : Session) (call : Call) :
    ∃ f, s.endingOf h call = .failed f := by
  obtain ⟨f, h_reaction, h_contained⟩ := reaction_of_failsAtOnce hh s call
  refine ⟨f, ?_⟩
  rw [endingOf, h_reaction]
  exact if_pos h_contained

theorem applyComponents_of_isNone {s : Session} (hctx : s.context.isSome = false) (doc : Value) :
    s.applyComponents doc = (s, .ok []) := by
  have h_none : s.context.isNone = true := by rw [← Option.not_isSome, hctx]; rfl
  rw [applyComponents, if_pos h_none]

/-! ### One run -/

/-- A relation between points of a run. `Q` holds of the handlers enabled at its start, and of those
that they bring in. -/
structure Along (Q : Handler → Prop) (R : Session → Session → Prop) : Prop where
  nameable : ∀ {h}, Q h → h.Nameable
  brought : ∀ {h n call context g}, Q h → Brought (h.react n call context) g → Q g
  refl : ∀ s, R s s
  trans : ∀ {s t u}, R s t → R t u → R s u
  enter : ∀ s name, R s (s.enter name)
  withSchemas : ∀ s t, R s (s.withSchemas t)
  /-- What the dispatcher itself reports. -/
  notify : ∀ s n, n.level = .debug → R s (s.notify n)
  call : ∀ s {h} call, Q h → R s (s.afterCall h call)

namespace Along

variable {Q : Handler → Prop} {R : Session → Session → Prop} (hR : Along Q R)

include hR

theorem pass {hs : List Handler} (hhs : ∀ h ∈ hs, Q h) (s : Session) (call : Call) :
    R s (s.pass call hs).1 := by
  induction hs generalizing s with
  | nil => exact hR.refl s
  | cons h hs ih =>
    have hh : Q h := hhs h List.mem_cons_self
    have h_first : R s (s.afterCall h call) := hR.call s call hh
    rcases attempt_cases (hR.nameable hh) s call with ⟨-, h_attempt⟩ | ⟨f, -, h_attempt⟩
    · rw [Session.pass, h_attempt]
      cases (s.endingOf h call).escaped? with
      | none => exact hR.trans h_first (ih (fun g hg => hhs g (List.mem_cons_of_mem h hg)) _)
      | some f => exact h_first
    · -- nothing has happened where the method is missing
      rw [Session.pass, h_attempt]
      exact hR.refl s

theorem forall_handlers {hs : List Handler} (hhs : ∀ h ∈ hs, Q h) {s : Session}
    (hs_all : ∀ h ∈ s.handlers, Q h) (call : Call) : ∀ h ∈ (s.pass call hs).1.handlers, Q h :=
  forall_handlers_pass hR.brought (fun h hh => hR.nameable (hhs h hh)) hhs hs_all

theorem applyDoc {s : Session} (hs : ∀ h ∈ s.handlers, Q h) (doc : Value) :
    R s (s.applyDoc doc).1 :=
  hR.pass hs s (.doc doc)

theorem applySchema {s : Session} (hs : ∀ h ∈ s.handlers, Q h) (name body : Value) :
    R s (s.applySchema name body).1 :=
  hR.pass hs s (.schema name body)

/-- The pass for a schema that a walk is at, also if a fault ends it. -/
theorem walkPass {p : WalkPoint} (hp : ∀ h ∈ p.session.handlers, Q h) (e : Value × Value) :
    R p.session (p.pass e).1 ∧ ∀ h ∈ (p.pass e).1.handlers, Q h := by
  have h_entered : ∀ h ∈ (p.session.enter e.1).handlers, Q h := hp
  exact ⟨hR.trans (hR.enter p.session e.1) (hR.applySchema h_entered e.1 e.2),
    hR.forall_handlers h_entered h_entered (.schema e.1 e.2)⟩

theorem walkStep {size : Nat} {p q : WalkPoint} (hp : ∀ h ∈ p.session.handlers, Q h)
    (h_step : WalkPoint.Step size p q) :
    R p.session q.session ∧ ∀ h ∈ q.session.handlers, Q h := by
  cases h_step with
  | ignores => exact ⟨hR.refl _, hp⟩
  | @dispatches i j left s t e h_size h_next h_map h_pass =>
    have h_walk := hR.walkPass (p := ⟨i, left + 1, s⟩) hp e
    unfold WalkPoint.pass at h_walk
    rwa [h_pass] at h_walk

theorem walk {size : Nat} {p : WalkPoint} (hp : ∀ h ∈ p.session.handlers, Q h) (names : Entries) :
    R p.session (p.walk size names).1 := by
  cases p.turn size names with
  | resized _ h_eq | done _ h_eq | surplus _ _ h_eq =>
    rw [h_eq]
    exact hR.refl _
  | @stopped _ e _ _ _ _ _ _ h_pass h_eq =>
    have h_walk := (hR.walkPass hp e).1
    rw [h_pass] at h_walk
    rwa [h_eq]
  | @goes q names' h_step h_left _ h_eq =>
    have h_dec : q.left < p.left := by omega
    obtain ⟨h_first, hq⟩ := hR.walkStep hp h_step
    rw [h_eq]
    exact hR.trans h_first (walk hq names')
termination_by p.left

theorem close (s : Session) (schemas : Bool) (answer : Except Fault Entries) :
    R s (s.close schemas answer) := by
  unfold Session.close
  split
  · exact hR.notify _ _ rfl
  · exact hR.withSchemas _ none
  · exact hR.trans (hR.withSchemas _ none) (hR.notify _ _ rfl)

/-- **Along an operation.** -/
theorem applyComponents {s : Session} (hs : ∀ h ∈ s.handlers, Q h) (doc : Value) :
    R s (s.applyComponents doc).1 := by
  cases hctx : s.context.isSome with
  | false =>
    rw [applyComponents_of_isNone hctx]
    exact hR.refl s
  | true =>
    have h_start : ∀ h ∈ (s.withSchemas (tableOf doc)).handlers, Q h := hs
    have h_doc : R s (s.docPass doc).1 :=
      hR.trans (hR.withSchemas s _) (hR.applyDoc h_start doc)
    cases h_fault : (s.docPass doc).2 with
    | some f =>
      rw [applyComponents_of_fault hctx h_fault]
      exact hR.trans h_doc (hR.withSchemas _ none)
    | none =>
      -- the walk goes on from what the pass for the document left
      have h_walk : R (s.docPass doc).1 (s.schemaWalk doc).1 :=
        hR.walk (p := s.walkStart doc) (hR.forall_handlers h_start h_start (.doc doc)) []
      rw [applyComponents_eq hctx h_fault]
      exact hR.trans (hR.trans h_doc h_walk) (hR.close _ _ _)

end Along

/-! ### Two runs -/

/-- Two runs of an operation end in corresponding points, and with the same answer. -/
def Agree {α : Type} (M : Session → Session → Prop) (a b : Session × α) : Prop :=
  M a.1 b.1 ∧ b.2 = a.2

/-- The two points, and the answer that they share. -/
theorem Agree.exists_eq {α : Type} {M : Session → Session → Prop} {a b : Session × α}
    (h : Agree M a b) : ∃ s t answer, a = (s, answer) ∧ b = (t, answer) ∧ M s t :=
  ⟨a.1, b.1, a.2, rfl, Prod.ext rfl h.2, h.1⟩

/-- A relation between two runs that nothing a handler does destroys. -/
structure Congruence (M : Session → Session → Prop) : Prop where
  context : ∀ {s t}, M s t → t.context = s.context
  schemas : ∀ {s t}, M s t → t.schemas = s.schemas
  setContext : ∀ {s t} c, M s t → M { s with context := c } { t with context := c }
  withSchemas : ∀ {s t} u, M s t → M (s.withSchemas u) (t.withSchemas u)
  register : ∀ {s t} c, M s t → M (s.register c) (t.register c)

namespace Congruence

variable {M : Session → Session → Prop} (hM : Congruence M)

include hM

theorem enter {s t : Session} (hst : M s t) (name : Value) : M (s.enter name) (t.enter name) := by
  unfold Session.enter
  rw [hM.context hst]
  exact hM.setContext _ hst

/-- **One effect** does the same in both runs. -/
theorem perform {s t : Session} (hst : M s t) (e : Effect) :
    Agree M (s.perform e) (t.perform e) := by
  cases e with
  | setName | setSchemaName =>
    simp only [Session.perform, hM.context hst]
    split
    · exact ⟨hst, rfl⟩
    · exact ⟨hM.setContext _ hst, rfl⟩
  | replaceContext context =>
    unfold Session.perform
    rw [hM.context hst]
    exact ⟨hM.setContext _ hst, rfl⟩
  | register candidate => exact ⟨hM.register candidate hst, rfl⟩
  | dropSchema key =>
    simp only [Session.perform, hM.schemas hst]
    split
    · exact ⟨hst, rfl⟩
    · exact ⟨hst, rfl⟩
    · split
      · exact ⟨hst, rfl⟩
      · exact ⟨hM.withSchemas _ hst, rfl⟩
  | putSchema key body =>
    simp only [Session.perform, hM.schemas hst]
    split
    · exact ⟨hst, rfl⟩
    · exact ⟨hst, rfl⟩
    · exact ⟨hM.withSchemas _ hst, rfl⟩
  | fail fault => exact ⟨hst, rfl⟩

theorem performAll {s t : Session} (hst : M s t) (es : List Effect) :
    Agree M (s.performAll es) (t.performAll es) := by
  induction es generalizing s t with
  | nil => exact ⟨hst, rfl⟩
  | cons e es ih =>
    obtain ⟨s', t', fault?, hs, ht, h_first⟩ := (hM.perform hst e).exists_eq
    simp only [Session.performAll, hs, ht]
    cases fault? with
    | none => exact ih h_first
    | some f => exact ⟨h_first, rfl⟩

end Congruence

/-- A relation between two runs that no pass destroys, whatever each run has for handlers. The
passes end alike, and the dispatcher sees the same in between. -/
structure Passwise (M : Session → Session → Prop) : Prop where
  context : ∀ {s t}, M s t → t.context = s.context
  schemas : ∀ {s t}, M s t → t.schemas = s.schemas
  enter : ∀ {s t} name, M s t → M (s.enter name) (t.enter name)
  withSchemas : ∀ {s t} u, M s t → M (s.withSchemas u) (t.withSchemas u)
  notify : ∀ {s t} n, n.level = .debug → M s t → M (s.notify n) (t.notify n)
  pass : ∀ {s t} call, M s t → Agree M (s.pass call s.handlers) (t.pass call t.handlers)

namespace Passwise

variable {M : Session → Session → Prop} (hM : Passwise M)

include hM

theorem applyDoc {s t : Session} (hst : M s t) (doc : Value) :
    Agree M (s.applyDoc doc) (t.applyDoc doc) :=
  hM.pass (.doc doc) hst

theorem applySchema {s t : Session} (hst : M s t) (name body : Value) :
    Agree M (s.applySchema name body) (t.applySchema name body) :=
  hM.pass (.schema name body) hst

/-- The two runs look at the same table, so they take the same turns. -/
theorem walk {size left i : Nat} {names : Entries} {s t : Session} (hst : M s t) :
    Agree M (Session.walk size left i names s) (Session.walk size left i names t) := by
  induction left using Nat.strong_induction_on generalizing i names s t with
  | _ left ih =>
  have h_table : t.table = s.table := by
    unfold table
    rw [hM.schemas hst]
  by_cases h_size : s.table.size = size
  · have h_size' : t.table.size = size := by rwa [h_table]
    cases h_next : s.table.next? i with
    | none =>
      rw [walk_of_none h_size h_next, walk_of_none h_size' (by rwa [h_table])]
      exact ⟨hst, rfl⟩
    | some x =>
      obtain ⟨j, e⟩ := x
      have h_next' : t.table.next? i = some (j, e) := by rwa [h_table]
      cases left with
      | zero =>
        rw [walk_of_surplus h_size h_next, walk_of_surplus h_size' h_next']
        exact ⟨hst, rfl⟩
      | succ left =>
        cases h_map : e.2.isMap with
        | false =>
          rw [walk_ignores h_size h_next h_map, walk_ignores h_size' h_next' h_map]
          exact ih left (Nat.lt_succ_self left) hst
        | true =>
          obtain ⟨s', t', fault?, h_pass, h_pass', h_after⟩ :=
            (hM.applySchema (hM.enter e.1 hst) e.1 e.2).exists_eq
          cases fault? with
          | some f =>
            rw [walk_of_fault h_size h_next h_map h_pass,
              walk_of_fault h_size' h_next' h_map h_pass']
            exact ⟨h_after, rfl⟩
          | none =>
            -- the name that the schema goes by now is read off the context
            have h_name : t'.currentName = s'.currentName := by
              unfold currentName
              rw [hM.context h_after]
            rw [walk_dispatches h_size h_next h_map h_pass,
              walk_dispatches h_size' h_next' h_map h_pass', h_name]
            exact ih left (Nat.lt_succ_self left) h_after
  · have h_size' : t.table.size ≠ size := by rwa [h_table]
    rw [walk_of_size_ne h_size, walk_of_size_ne h_size']
    exact ⟨hst, rfl⟩

theorem close {s t : Session} (hst : M s t) (schemas : Bool) (answer : Except Fault Entries) :
    M (s.close schemas answer) (t.close schemas answer) := by
  unfold Session.close
  split
  · exact hM.notify _ rfl hst
  · exact hM.withSchemas none hst
  · exact hM.notify _ rfl (hM.withSchemas none hst)

/-- **By passes.** -/
theorem applyComponents {s t : Session} (hst : M s t) (doc : Value) :
    Agree M (s.applyComponents doc) (t.applyComponents doc) := by
  cases hctx : s.context.isSome with
  | false =>
    rw [applyComponents_of_isNone hctx, applyComponents_of_isNone (by rwa [hM.context hst])]
    exact ⟨hst, rfl⟩
  | true =>
    have hctx' : t.context.isSome = true := by rwa [hM.context hst]
    obtain ⟨h_doc, h_answer⟩ : Agree M (s.docPass doc) (t.docPass doc) :=
      hM.applyDoc (hM.withSchemas _ hst) doc
    cases h_fault : (s.docPass doc).2 with
    | some f =>
      rw [applyComponents_of_fault hctx h_fault,
        applyComponents_of_fault hctx' (h_answer.trans h_fault)]
      exact ⟨hM.withSchemas none h_doc, rfl⟩
    | none =>
      have h_size : (t.docPass doc).1.table.size = (s.docPass doc).1.table.size := by
        unfold table
        rw [hM.schemas h_doc]
      obtain ⟨h_walk, h_names⟩ : Agree M (s.schemaWalk doc) (t.schemaWalk doc) := by
        unfold schemaWalk walkStart WalkPoint.walk
        rw [h_size]
        exact hM.walk h_doc
      rw [applyComponents_eq hctx h_fault, applyComponents_eq hctx' (h_answer.trans h_fault),
        h_names, hM.schemas h_doc]
      exact ⟨hM.close h_walk _ _, rfl⟩

end Passwise

/-- A relation between two runs, the second of which lacks the handlers that `skips` tells. It holds
between the points that correspond to each other: the calls of these handlers take place in the
first run alone. -/
structure Lockstep (skips : Handler → Bool) (M : Session → Session → Prop) : Prop where
  context : ∀ {s t}, M s t → t.context = s.context
  schemas : ∀ {s t}, M s t → t.schemas = s.schemas
  handlers : ∀ {s t}, M s t → t.handlers = s.handlers.filter fun h => !skips h
  nameable : ∀ {s t}, M s t → ∀ h ∈ s.handlers, h.Nameable
  fails : ∀ {s t}, M s t → ∀ h ∈ s.handlers, skips h = true → h.FailsAtOnce
  enter : ∀ {s t} name, M s t → M (s.enter name) (t.enter name)
  withSchemas : ∀ {s t} u, M s t → M (s.withSchemas u) (t.withSchemas u)
  notify : ∀ {s t} n, n.level = .debug → M s t → M (s.notify n) (t.notify n)
  /-- A call that takes place in both runs. -/
  call : ∀ {s t h} call, M s t → h.Nameable → skips h = false →
    M (s.afterCall h call) (t.afterCall h call) ∧ t.endingOf h call = s.endingOf h call
  /-- A call that fails in the first run, and does not take place in the second. -/
  skip : ∀ {s t h} call, M s t → h.Nameable → skips h = true → h.FailsAtOnce →
    M (s.afterCall h call) t

namespace Lockstep

variable {skips : Handler → Bool} {M : Session → Session → Prop} (hM : Lockstep skips M)

include hM

theorem pass {hs : List Handler} (hn : ∀ h ∈ hs, h.Nameable)
    (h_fails : ∀ h ∈ hs, skips h = true → h.FailsAtOnce) {s t : Session} (hst : M s t)
    (call : Call) : Agree M (s.pass call hs) (t.pass call (hs.filter fun h => !skips h)) := by
  induction hs generalizing s t with
  | nil => exact ⟨hst, rfl⟩
  | cons h hs ih =>
    have hh : h.Nameable := hn h List.mem_cons_self
    have ih := fun {s t} => @ih (fun g hg => hn g (List.mem_cons_of_mem h hg))
      (fun g hg => h_fails g (List.mem_cons_of_mem h hg)) s t
    cases h_skip : skips h with
    | true =>
      -- the first run gets over the call by itself
      have h_once : h.FailsAtOnce := h_fails h List.mem_cons_self h_skip
      obtain ⟨f, h_ending⟩ := endingOf_of_failsAtOnce h_once s call
      have h_gone : (h :: hs).filter (fun h => !skips h) = hs.filter fun h => !skips h :=
        List.filter_cons_of_neg (by rw [h_skip]; exact Bool.false_ne_true)
      rw [Session.pass, attempt_eq hh (h_once.complete call.scope), h_ending, h_gone]
      exact ih (hM.skip call hst hh h_skip h_once)
    | false =>
      obtain ⟨h_after, h_ending⟩ := hM.call call hst hh h_skip
      have h_kept : (h :: hs).filter (fun h => !skips h) = h :: hs.filter fun h => !skips h :=
        List.filter_cons_of_pos (by rw [h_skip]; rfl)
      cases h_missing : h.missing call.scope with
      | none =>
        rw [h_kept, Session.pass, attempt_eq hh h_missing, Session.pass, attempt_eq hh h_missing,
          h_ending]
        cases (s.endingOf h call).escaped? with
        | none => exact ih h_after
        | some f => exact ⟨h_after, rfl⟩
      | some f =>
        -- both runs end here, for the same reason
        rw [h_kept, Session.pass, attempt_of_missing h_missing, Session.pass,
          attempt_of_missing h_missing]
        exact ⟨hst, rfl⟩

/-- **In lockstep**, pass by pass. -/
theorem passwise : Passwise M where
  context := hM.context
  schemas := hM.schemas
  enter := hM.enter
  withSchemas := hM.withSchemas
  notify := hM.notify
  pass call hst := by
    rw [hM.handlers hst]
    exact hM.pass (hM.nameable hst) (hM.fails hst) hst call

end Lockstep

end Session

end SchemaNaming
