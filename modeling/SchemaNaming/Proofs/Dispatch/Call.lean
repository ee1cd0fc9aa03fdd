import SchemaNaming.Session.Dispatch

/-!
# One call of a handler

What `Session.invoke` does is a reaction of the handler — its effects, up to the first that fails —
followed by the dispatcher's bookkeeping. This module takes the two apart and says once what a
reaction can change, so that no later proof unfolds `invoke` or `perform`:

* `Session.invoke_eq` — a call of a handler whose name has a text leaves `Session.afterCall`, and
  the one fault that gets out of it is the one that aborts it;
* `Session.attempt_cases` — so the dispatcher either makes that call, or finds no method for it;
* `Session.performAll_frame` — a part of the session that no single effect changes is unchanged by
  a whole reaction; histories, configurations and counters are such parts;
* `Session.performAll_withSchemas` — effects that edit no schemas do not depend on the table of
  schemas and leave it alone;
* `Session.mem_handlers_afterCall` — the handlers enabled after a call are those enabled before it
  and accepted candidates that the call itself registered.

The last fact gives every property of handlers that is carried to the candidates a handler
registers: `Handler.Always P` says that a handler never has an effect outside `P`, and neither has
any handler that it registers, however late.
-/

namespace SchemaNaming

/-- How a call ends whose effects failed with the given fault, or did not fail. -/
def Ending.ofFault : Option Fault → Ending
  | none => .returned
  | some f => if f.contained then .failed f else .aborted f

/-- The fault that gets out of a call with this ending. -/
def Ending.escaped? : Ending → Option Fault
  | .aborted f => some f
  | _ => none

/-- The effect edits the schemas being walked. -/
def Effect.edits : Effect → Bool
  | .dropSchema _ => true
  | .putSchema _ _ => true
  | _ => false

namespace Handler

/-- The handler's name has a text. Notices and counters need one; a name that is a text is its
own. -/
def Nameable (h : Handler) : Prop := ∃ n, h.name.generalText = .ok n

/-- The name as it stands in notices. -/
def nameText (h : Handler) : String := h.name.generalText.toOption.getD ""

/-- The label under which the handler's calls are counted. -/
def label (h : Handler) : String := (labelOf h.name).toOption.getD ""

theorem nameable_of_text {h : Handler} {n : String} (hn : h.name = .text n) : h.Nameable :=
  ⟨n, by rw [hn]; rfl⟩

theorem Nameable.generalText_eq {h : Handler} (hn : h.Nameable) :
    h.name.generalText = .ok h.nameText := by
  obtain ⟨n, hn⟩ := hn
  simp [nameText, hn, Except.toOption]

theorem Nameable.labelOf_eq {h : Handler} (hn : h.Nameable) : labelOf h.name = .ok h.label := by
  obtain ⟨n, hn⟩ := hn
  by_cases ht : h.name.truthy <;> simp [label, labelOf, ht, hn, Except.toOption]

/-- **A property of effects, for good.** Every effect that the handler can have satisfies `P`, and
so does every effect of a handler that it registers, of a handler that this one registers, and so
on. Candidates are trees, so the inductive reading covers every chain of registrations. -/
inductive Always (P : Effect → Prop) : Handler → Prop
  | intro {h : Handler}
      (effects : ∀ n call context, ∀ e ∈ h.react n call context, P e)
      (registered : ∀ n call context g,
        .register (.handler g) ∈ h.react n call context → Always P g) :
      Always P h

theorem Always.of_react_eq {P : Effect → Prop} {g h : Handler} (hg : g.Always P)
    (h_eq : h.react = g.react) : h.Always P := by
  cases hg with
  | intro effects registered =>
    exact .intro (by rw [h_eq]; exact effects) (by rw [h_eq]; exact registered)

/-- The handler never edits the schemas being walked, and neither do those that it registers. -/
def SparesSchemas (h : Handler) : Prop := h.Always fun e => e.edits = false

/-- What the handler registers has both methods, if it is a handler, and so it is with those that it
registers. -/
def BringsComplete (h : Handler) : Prop :=
  h.Always fun e => ∀ g, e = .register (.handler g) → g.Complete

/-- The handler's name can be written, it has both methods, as those that it registers have, and it
never edits the schemas being walked. -/
structure Tame (h : Handler) : Prop where
  nameable : h.Nameable
  complete : h.Complete
  brings : h.BringsComplete
  spares : h.SparesSchemas

/-- The handler has the methods of the one that the library ships and reacts like it, whatever it is
called. -/
structure IsCms (h : Handler) : Prop where
  complete : h.Complete
  react_eq : h.react = fun _ => Cms.react

theorem bringsComplete_of_registersNone {h : Handler}
    (h_none : ∀ n call context, ∀ e ∈ h.react n call context, ∀ c, e ≠ .register c) :
    h.BringsComplete :=
  .intro (fun n call context e he _ h_eq => absurd h_eq (h_none n call context e he _))
    fun n call context g hg => absurd rfl (h_none n call context _ hg (.handler g))

/-- The shipped handler writes names and fails, and does nothing else. -/
theorem IsCms.always {P : Effect → Prop} {h : Handler} (hh : h.IsCms)
    (h_name : ∀ name resolved, P (.setName name resolved))
    (h_schemaName : ∀ name, P (.setSchemaName name)) (h_fail : ∀ f, P (.fail f)) :
    h.Always P := by
  have cases_mem : ∀ call context, ∀ e ∈ Cms.react call context,
      P e ∧ ∀ c, e ≠ .register c := by
    intro call context e he
    unfold Cms.react at he
    -- one case for each outcome of reading the block; where nothing is read there is no effect
    repeat' split at he
    all_goals
      simp only [List.mem_cons, List.not_mem_nil, or_false] at he
    · rw [he]
      exact ⟨h_fail _, fun _ => nofun⟩
    · rw [he]
      exact ⟨h_name _ _, fun _ => nofun⟩
    · rw [he]
      exact ⟨h_fail _, fun _ => nofun⟩
    · rcases he with he | he <;> rw [he]
      · exact ⟨h_name _ _, fun _ => nofun⟩
      · exact ⟨h_schemaName _, fun _ => nofun⟩
  refine .intro (fun n call context e he => ?_) (fun n call context g hg => ?_)
  · rw [hh.react_eq] at he
    exact (cases_mem call context e he).1
  · -- it registers nothing, so there is no handler to speak of
    rw [hh.react_eq] at hg
    exact absurd rfl ((cases_mem call context _ hg).2 (.handler g))

theorem complete_steady (typeName : String) (name : Value)
    (react : Call → Option Context → List Effect) : (steady typeName name react).Complete :=
  fun _ => rfl

theorem isCms_cms (name : Value) : (cms name).IsCms := ⟨fun _ => rfl, rfl⟩

theorem isCms_builtin (name : Value) : (builtin name).IsCms := ⟨fun _ => rfl, rfl⟩

theorem IsCms.spares {h : Handler} (hh : h.IsCms) : h.SparesSchemas :=
  hh.always (fun _ _ => rfl) (fun _ => rfl) (fun _ => rfl)

theorem IsCms.brings {h : Handler} (hh : h.IsCms) : h.BringsComplete :=
  hh.always (fun _ _ _ => nofun) (fun _ _ => nofun) (fun _ _ => nofun)

theorem IsCms.tame {h : Handler} (hh : h.IsCms) (hn : h.Nameable) : h.Tame :=
  ⟨hn, hh.complete, hh.brings, hh.spares⟩

/-! ### Handlers that edit no schemas -/

/-- A steady handler is tame if its effects edit no schemas and register only tame handlers. -/
theorem tame_steady {typeName name : String} {react : Call → Option Context → List Effect}
    (h_edits : ∀ call context, ∀ e ∈ react call context, e.edits = false)
    (h_registered : ∀ call context g, .register (.handler g) ∈ react call context → g.Tame) :
    (steady typeName (.text name) react).Tame where
  nameable := nameable_of_text rfl
  complete := complete_steady typeName (.text name) react
  brings := by
    refine .intro (fun _ call context e he g h_eq => ?_) fun _ call context g hg => ?_
    · rw [h_eq] at he
      exact (h_registered call context g he).complete
    · exact (h_registered call context g hg).brings
  spares := .intro (fun _ => h_edits) fun _ call context g hg =>
    (h_registered call context g hg).spares

theorem forall_mem_inScopes {P : Effect → Prop} {on : List Scope}
    {react : Call → Option Context → List Effect} {call : Call} {context : Option Context}
    (hP : ∀ e ∈ react call context, P e) : ∀ e ∈ inScopes on react call context, P e := by
  intro e he
  unfold inScopes at he
  split at he
  · exact hP e he
  · cases he

section InScopes

variable (name : String) (on : List Scope)

theorem tame_idle : (idle (.text name)).Tame :=
  tame_steady (fun _ _ => List.forall_mem_nil _) (fun _ _ _ => nofun)

theorem tame_failing (fault : Fault) : (failing (.text name) on fault).Tame := by
  refine tame_steady (fun call context => ?_) (fun call context g hg => ?_)
  · exact forall_mem_inScopes (List.forall_mem_singleton.mpr rfl)
  · exact (forall_mem_inScopes (P := fun e => ∀ c, e ≠ .register c)
      (List.forall_mem_singleton.mpr fun _ => nofun) _ hg _ rfl).elim

theorem tame_naming (names : List (Value × Value)) (schemaName : Option Value) :
    (naming (.text name) on names schemaName).Tame := by
  have h_effects : ∀ e ∈ names.map (fun n => Effect.setName n.1 n.2)
      ++ schemaName.toList.map .setSchemaName, e.edits = false ∧ ∀ c, e ≠ .register c := by
    intro e he
    rcases List.mem_append.mp he with he | he
    · obtain ⟨n, -, rfl⟩ := List.mem_map.mp he
      exact ⟨rfl, fun _ => nofun⟩
    · obtain ⟨v, -, rfl⟩ := List.mem_map.mp he
      exact ⟨rfl, fun _ => nofun⟩
  refine tame_steady (fun call context => ?_) (fun call context g hg => ?_)
  · exact forall_mem_inScopes fun e he => (h_effects e he).1
  · exact (forall_mem_inScopes (P := fun e => ∀ c, e ≠ .register c)
      (fun e he => (h_effects e he).2) _ hg _ rfl).elim

theorem tame_registering {g : Handler} (hg : g.Tame) :
    (registering (.text name) on (.handler g)).Tame := by
  refine tame_steady (fun call context => ?_) (fun call context g' hg' => ?_)
  · exact forall_mem_inScopes (List.forall_mem_singleton.mpr rfl)
  · have h_eq := forall_mem_inScopes (P := fun e => e = .register (.handler g))
      (fun e he => List.mem_singleton.mp he) _ hg'
    obtain rfl : g' = g := Candidate.handler.inj (Effect.register.inj h_eq)
    exact hg

end InScopes

end Handler

namespace Session

/-! ### Parts of a reaction -/

/-- What a handler does when it is called: its effects, up to the first that fails. -/
def reaction (s : Session) (h : Handler) (call : Call) : Session × Option Fault :=
  s.performAll (h.react (s.callsOf h.serial) call s.context)

/-- How a call ends. -/
def endingOf (s : Session) (h : Handler) (call : Call) : Ending := .ofFault (s.reaction h call).2

/-- Enters the ending of a call into the counters, and a contained failure into the notices. A call
that ends the operation is not counted. -/
def book (s : Session) (h : Handler) (call : Call) : Ending → Session
  | .returned => s.count h.label call.scope .ok
  | .failed f => (s.notify (.failed call.scope h.nameText f)).count h.label call.scope .error
  | .aborted _ => s

/-- The session that a call leaves: whatever the handler did before it returned or failed, the call
in the history, and its ending in the books. -/
def afterCall (s : Session) (h : Handler) (call : Call) : Session :=
  ((s.reaction h call).1.note ⟨h, call, s.context, s.endingOf h call⟩).book h call
    (s.endingOf h call)

/-- **One call.** Apart from the aborting fault nothing gets out of a call of a handler whose name
has a text. -/
theorem invoke_eq {h : Handler} (hn : h.Nameable) (s : Session) (call : Call) :
    s.invoke h call = (s.afterCall h call, (s.endingOf h call).escaped?) := by
  simp only [invoke, afterCall, endingOf, reaction]
  rcases hr : s.performAll (h.react (s.callsOf h.serial) call s.context) with ⟨t, fault⟩
  cases fault with
  | none => simp only [hn.labelOf_eq, Ending.ofFault, Ending.escaped?, book]
  | some f =>
    -- a contained fault is noted and counted, for which the name needs a text; any other gets out
    by_cases hf : f.contained
    · simp only [hf, if_true, hn.labelOf_eq, hn.generalText_eq, Ending.ofFault, Ending.escaped?,
        book]
    · simp only [hf, Bool.false_eq_true, if_false, Ending.ofFault, Ending.escaped?, book]

theorem attempt_of_missing {h : Handler} {call : Call} {f : Fault}
    (h_missing : h.missing call.scope = some f) (s : Session) : s.attempt h call = (s, some f) := by
  unfold attempt
  rw [h_missing]

theorem attempt_of_answers {h : Handler} {call : Call} (h_answers : h.Answers call.scope)
    (s : Session) : s.attempt h call = s.invoke h call := by
  have h_none : h.missing call.scope = none := h_answers
  unfold attempt
  rw [h_none]

theorem attempt_eq {h : Handler} (hn : h.Nameable) {call : Call} (h_answers : h.Answers call.scope)
    (s : Session) : s.attempt h call = (s.afterCall h call, (s.endingOf h call).escaped?) :=
  (attempt_of_answers h_answers s).trans (invoke_eq hn s call)

/-- **A call, or none.** The handler is called, or the lookup of its method ends the operation
before it is. -/
theorem attempt_cases {h : Handler} (hn : h.Nameable) (s : Session) (call : Call) :
    (h.Answers call.scope
        ∧ s.attempt h call = (s.afterCall h call, (s.endingOf h call).escaped?))
      ∨ ∃ f, h.missing call.scope = some f ∧ s.attempt h call = (s, some f) := by
  cases h_missing : h.missing call.scope with
  | none => exact .inl ⟨h_missing, attempt_eq hn h_missing s⟩
  | some f => exact .inr ⟨f, rfl, attempt_of_missing h_missing s⟩

/-! ### What a reaction leaves alone -/

/-- What each of the effects preserves, the sequence of them preserves, whether it fails or not. -/
theorem performAll_preserves_of {P : Session → Prop} {es : List Effect}
    (hP : ∀ e ∈ es, ∀ s, P s → P (s.perform e).1) {s : Session} (hs : P s) :
    P (s.performAll es).1 := by
  induction es generalizing s with
  | nil => exact hs
  | cons e es ih =>
    -- the first effect preserves it, and if it fails there is no other
    have h_first := hP e List.mem_cons_self s hs
    have hP' : ∀ e ∈ es, ∀ s, P s → P (s.perform e).1 :=
      fun e he => hP e (List.mem_cons_of_mem _ he)
    simp only [performAll]
    rcases hp : s.perform e with ⟨t, _ | f⟩
    · rw [hp] at h_first
      exact ih hP' h_first
    · rw [hp] at h_first
      exact h_first

theorem performAll_preserves {P : Session → Prop} (hP : ∀ s e, P s → P (s.perform e).1)
    (es : List Effect) {s : Session} (hs : P s) : P (s.performAll es).1 :=
  performAll_preserves_of (fun e _ s => hP s e) hs

/-- **Frame.** A view of the session that no single effect changes is not changed by a sequence of
effects either. -/
theorem performAll_frame {α : Type} (view : Session → α)
    (hview : ∀ s e, view (s.perform e).1 = view s) (es : List Effect) (s : Session) :
    view (s.performAll es).1 = view s :=
  performAll_preserves (P := fun t => view t = view s) (fun t e ht => (hview t e).trans ht) es rfl

theorem perform_history (s : Session) (e : Effect) : (s.perform e).1.history = s.history := by
  cases e <;> simp only [perform] <;> (repeat' split) <;> rfl

theorem perform_config (s : Session) (e : Effect) : (s.perform e).1.config = s.config := by
  cases e <;> simp only [perform] <;> (repeat' split) <;> rfl

theorem perform_context_isSome (s : Session) (e : Effect) :
    (s.perform e).1.context.isSome = s.context.isSome := by
  cases e <;> simp only [perform] <;> (repeat' split) <;> simp_all [register, notify]

@[simp] theorem performAll_history (s : Session) (es : List Effect) :
    (s.performAll es).1.history = s.history :=
  performAll_frame Session.history perform_history es s

@[simp] theorem performAll_config (s : Session) (es : List Effect) :
    (s.performAll es).1.config = s.config :=
  performAll_frame Session.config perform_config es s

@[simp] theorem performAll_context_isSome (s : Session) (es : List Effect) :
    (s.performAll es).1.context.isSome = s.context.isSome :=
  performAll_frame (fun s => s.context.isSome) perform_context_isSome es s

/-! ### Reactions that edit no schemas -/

/-- The session with another table of schemas. -/
def withSchemas (s : Session) (t : Option SchemaTable) : Session := { s with schemas := t }

@[simp] theorem withSchemas_schemas (s : Session) (t : Option SchemaTable) :
    (s.withSchemas t).schemas = t := rfl

@[simp] theorem withSchemas_handlers (s : Session) (t : Option SchemaTable) :
    (s.withSchemas t).handlers = s.handlers := rfl

@[simp] theorem withSchemas_self (s : Session) : s.withSchemas s.schemas = s := rfl

theorem perform_withSchemas {e : Effect} (he : e.edits = false) (s : Session)
    (t : Option SchemaTable) :
    (s.withSchemas t).perform e = ((s.perform e).1.withSchemas t, (s.perform e).2) := by
  cases e with
  | dropSchema | putSchema => cases he
  | setName name resolved => cases hc : s.context <;> simp [perform, withSchemas, hc]
  | setSchemaName name => cases hc : s.context <;> simp [perform, withSchemas, hc]
  | replaceContext context => rfl
  | register candidate => rfl
  | fail fault => rfl

/-- **Indifference to the schemas.** Effects that edit no schemas do the same whatever the table of
schemas is, and leave it as it is. -/
theorem performAll_withSchemas {es : List Effect} (hes : ∀ e ∈ es, e.edits = false) (s : Session)
    (t : Option SchemaTable) :
    (s.withSchemas t).performAll es
      = ((s.performAll es).1.withSchemas t, (s.performAll es).2) := by
  induction es generalizing s with
  | nil => rfl
  | cons e es ih =>
    have he : e.edits = false := hes e List.mem_cons_self
    have hes' : ∀ e ∈ es, e.edits = false := fun e h => hes e (List.mem_cons_of_mem _ h)
    simp only [performAll, perform_withSchemas he]
    rcases s.perform e with ⟨u, _ | f⟩
    · exact ih hes' u
    · rfl

/-- The call of a handler that edits no schemas does not depend on them either. -/
theorem afterCall_withSchemas {h : Handler} (hh : h.SparesSchemas) (s : Session)
    (call : Call) (t : Option SchemaTable) :
    (s.withSchemas t).afterCall h call = (s.afterCall h call).withSchemas t
      ∧ (s.withSchemas t).endingOf h call = s.endingOf h call := by
  cases hh with
  | intro effects _ =>
    have hr : (s.withSchemas t).reaction h call
        = ((s.reaction h call).1.withSchemas t, (s.reaction h call).2) :=
      performAll_withSchemas (effects _ _ _) s t
    have he : (s.withSchemas t).endingOf h call = s.endingOf h call := by
      unfold endingOf
      rw [hr]
    refine ⟨?_, he⟩
    -- the books do not mention the schemas, whatever the ending
    unfold afterCall
    rw [he, hr]
    cases s.endingOf h call <;> rfl

/-! ### The registry after a reaction -/

/-- The handler is one that the effects register: what a registry takes in of a candidate of theirs,
under some serial number. -/
def Enlisted (es : List Effect) (h : Handler) : Prop :=
  ∃ c serial shippedName, .register c ∈ es ∧ h ∈ (Registry.offer serial shippedName [] c).1

theorem Enlisted.mono {es fs : List Effect} {h : Handler} (he : Enlisted es h) (hsub : es ⊆ fs) :
    Enlisted fs h := by
  obtain ⟨c, serial, shippedName, h_effect, h_mem⟩ := he
  exact ⟨c, serial, shippedName, hsub h_effect, h_mem⟩

/-- The handlers that the effects `es` can bring into a registry: a candidate that one of them
registers, or the shipped handler, in either case under a name that is a text. -/
def Brought (es : List Effect) (h : Handler) : Prop :=
  (∃ n, h.name = .text n)
    ∧ ((∃ g, .register (.handler g) ∈ es ∧ h.react = g.react ∧ h.missing = g.missing)
      ∨ (.register .shipped ∈ es ∧ h.IsCms))

/-- What is registered comes with its methods and its reaction, and under a text. -/
theorem Enlisted.brought {es : List Effect} {h : Handler} (he : Enlisted es h) :
    Brought es h := by
  obtain ⟨c, serial, shippedName, h_effect, h_mem⟩ := he
  have h_enrol : ∀ g : Handler, h ∈ (Registry.enrol serial [] g).1 →
      h = { g with serial } ∧ ∃ n, g.name = .text n := by
    intro g h_mem
    unfold Registry.enrol at h_mem
    cases h_name : g.acceptedName? with
    | none =>
      rw [h_name] at h_mem
      cases h_mem
    | some n =>
      rw [h_name] at h_mem
      exact ⟨List.mem_singleton.mp h_mem, n, Handler.name_of_acceptedName? h_name⟩
  cases c with
  | absent | nameless => cases h_mem
  | handler g =>
    obtain ⟨rfl, n, hn⟩ := h_enrol g h_mem
    exact ⟨⟨n, hn⟩, .inl ⟨g, h_effect, rfl, rfl⟩⟩
  | shipped =>
    obtain ⟨rfl, n, hn⟩ := h_enrol _ h_mem
    exact ⟨⟨n, hn⟩, .inr ⟨h_effect, fun _ => rfl, rfl⟩⟩

theorem mem_registry_perform {s : Session} {e : Effect} {h : Handler}
    (hmem : h ∈ (s.perform e).1.registry) : h ∈ s.registry ∨ Enlisted [e] h := by
  -- only one kind of effect touches the registry at all
  cases e with
  | register c =>
    change h ∈ (s.registry.offer s.nextSerial s.shippedName c).1 at hmem
    rw [Registry.offer_eq_append] at hmem
    refine (List.mem_append.mp hmem).imp id fun h_new => ?_
    exact ⟨c, s.nextSerial, s.shippedName, List.mem_singleton.mpr rfl, h_new⟩
  | _ =>
    simp only [perform] at hmem
    repeat' split at hmem
    all_goals exact .inl hmem

theorem mem_registry_performAll {s : Session} {es : List Effect} {h : Handler}
    (hmem : h ∈ (s.performAll es).1.registry) : h ∈ s.registry ∨ Enlisted es h := by
  induction es generalizing s with
  | nil => exact .inl hmem
  | cons e es ih =>
    -- what the first effect brings in, and then what the others do if it does not fail
    have one : h ∈ (s.perform e).1.registry → h ∈ s.registry ∨ Enlisted (e :: es) h :=
      fun h_one => (mem_registry_perform h_one).imp id fun he =>
        he.mono (List.cons_subset_cons e (List.nil_subset es))
    simp only [performAll] at hmem
    rcases hp : s.perform e with ⟨t, _ | f⟩
    · rw [hp] at hmem one
      rcases ih hmem with h_old | he
      · exact one h_old
      · exact .inr (he.mono (List.subset_cons_self e es))
    · rw [hp] at hmem one
      exact one hmem

theorem registry_prefix_perform (s : Session) (e : Effect) :
    s.registry <+: (s.perform e).1.registry := by
  -- only one kind of effect touches the registry at all
  cases e with
  | register candidate => exact Registry.offer_isPrefix _ _ _ candidate
  | _ =>
    simp only [perform]
    repeat' split
    all_goals exact List.prefix_refl _

/-- **Append-only.** Effects never take a handler out of the registry, nor change the order. -/
theorem registry_prefix_performAll (s : Session) (es : List Effect) :
    s.registry <+: (s.performAll es).1.registry :=
  performAll_preserves (P := fun t => s.registry <+: t.registry)
    (fun t e ht => ht.trans (registry_prefix_perform t e)) es (List.prefix_refl _)

theorem Brought.nameable {es : List Effect} {h : Handler} (hb : Brought es h) : h.Nameable := by
  obtain ⟨⟨n, hn⟩, -⟩ := hb
  exact Handler.nameable_of_text hn

/-- What a handler always does, everything that it brings in always does. -/
theorem Brought.always {P : Effect → Prop} (hP : ∀ {f : Handler}, f.IsCms → f.Always P)
    {n : Nat} {call : Call} {context : Option Context} {h g : Handler}
    (hb : Brought (h.react n call context) g) (hh : h.Always P) : g.Always P := by
  obtain ⟨-, ⟨f, hf, h_react, -⟩ | ⟨-, h_cms⟩⟩ := hb
  · -- a candidate is a subtree of the handler that registers it
    cases hh with
    | intro _ registered => exact (registered _ _ _ f hf).of_react_eq h_react
  · exact hP h_cms

/-- What brings in handlers with both methods alone does so. -/
theorem Brought.complete {n : Nat} {call : Call} {context : Option Context} {h g : Handler}
    (hb : Brought (h.react n call context) g) (hh : h.BringsComplete) : g.Complete := by
  obtain ⟨-, ⟨f, hf, -, h_missing⟩ | ⟨-, h_cms⟩⟩ := hb
  · cases hh with
    | intro effects _ =>
      have h_complete : f.Complete := effects _ _ _ _ hf f rfl
      exact fun scope => (congrFun h_missing scope).trans (h_complete scope)
  · exact h_cms.complete

theorem Brought.tame {n : Nat} {call : Call} {context : Option Context} {h g : Handler}
    (hh : h.Tame) (hb : Brought (h.react n call context) g) : g.Tame where
  nameable := hb.nameable
  complete := hb.complete hh.brings
  brings := hb.always Handler.IsCms.brings hh.brings
  spares := hb.always Handler.IsCms.spares hh.spares

/-! ### What a call leaves -/

section AfterCall

variable (s : Session) (h : Handler) (call : Call)

@[simp] theorem book_history (ending : Ending) : (s.book h call ending).history = s.history := by
  cases ending <;> rfl

@[simp] theorem book_context (ending : Ending) : (s.book h call ending).context = s.context := by
  cases ending <;> rfl

@[simp] theorem book_registry (ending : Ending) :
    (s.book h call ending).registry = s.registry := by
  cases ending <;> rfl

@[simp] theorem book_config (ending : Ending) : (s.book h call ending).config = s.config := by
  cases ending <;> rfl

/-- The call stands in the history, with the context at its start and its ending. -/
theorem afterCall_history :
    (s.afterCall h call).history
      = s.history ++ [⟨h, call, s.context, s.endingOf h call⟩] := by
  unfold afterCall reaction
  rw [book_history]
  simp [note]

/-- The context is what the reaction made of it; the dispatcher adds nothing. -/
theorem afterCall_context : (s.afterCall h call).context = (s.reaction h call).1.context := by
  unfold afterCall
  rw [book_context]
  rfl

theorem afterCall_context_isSome :
    (s.afterCall h call).context.isSome = s.context.isSome := by
  rw [afterCall_context, reaction, performAll_context_isSome]

theorem afterCall_registry : (s.afterCall h call).registry = (s.reaction h call).1.registry := by
  unfold afterCall
  rw [book_registry]
  rfl

theorem afterCall_config : (s.afterCall h call).config = s.config := by
  unfold afterCall
  rw [book_config]
  exact performAll_config s _

/-- **The handlers after a call** are those enabled before it and those that the call brought in. -/
theorem mem_handlers_afterCall {g : Handler} (hmem : g ∈ (s.afterCall h call).handlers) :
    g ∈ s.handlers ∨ Brought (h.react (s.callsOf h.serial) call s.context) g := by
  -- the configuration stays, so the handler was enabled before if it was there
  unfold handlers activeConfig at hmem ⊢
  rw [List.mem_filter, afterCall_config, afterCall_registry] at hmem
  obtain ⟨h_reg, h_on⟩ := hmem
  refine (mem_registry_performAll h_reg).imp (fun h_old => ?_) Enlisted.brought
  exact List.mem_filter.mpr ⟨h_old, h_on⟩

end AfterCall

/-! ### Handlers keep their places -/

/-- The later session has the configuration of the earlier one, and its handlers in their places. -/
structure Extends (s t : Session) : Prop where
  registry : s.registry <+: t.registry
  config : t.config = s.config

namespace Extends

variable {s t u : Session}

theorem refl (s : Session) : Extends s s := ⟨List.prefix_refl _, rfl⟩

theorem trans (hst : Extends s t) (htu : Extends t u) : Extends s u :=
  ⟨hst.registry.trans htu.registry, htu.config.trans hst.config⟩

/-- The handlers that were enabled still are, in the same places. -/
theorem handlers (h : Extends s t) : s.handlers <+: t.handlers := by
  unfold Session.handlers activeConfig
  rw [h.config]
  exact h.registry.filter _

end Extends

theorem extends_afterCall (s : Session) (h : Handler) (call : Call) :
    s.Extends (s.afterCall h call) where
  registry := by
    rw [afterCall_registry]
    exact registry_prefix_performAll s _
  config := afterCall_config s h call

end Session

end SchemaNaming
