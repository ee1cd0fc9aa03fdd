import SchemaNaming.Proofs.Dispatch.Registered

/-!
# The effects of a run

Whatever a handler does to a session it does by its effects. This module keeps an account of them:
which effects a run carries out, in their order, across calls that fail and operations that are
ended half-way.

* `Session.carried` — of the effects of one call, those up to and including the first that fails;
* `Session.passEffects`, `Session.walkEffects`, `Session.componentsEffects` — the effects of
  dispatching, read off the same turns that dispatching takes;
* `Session.effects` — the effects of a step of a session;
* `Session.after` — what a sequence of steps leaves.

What a session's handlers and its context are like after a run is then a matter of the effects
alone. A relation between two points of a run and the effects in between is `Traced` if it holds
across each single effect, across what the dispatcher does by itself (`Session.Alike`), and across
one stretch after another; then it holds across every step (`Traced.step`). Nothing is assumed of
the handlers, so this also covers those whose names cannot be written.
-/

namespace SchemaNaming

namespace Session

/-! ### Effects carried out -/

/-- The effects that are carried out: all up to the first that fails, and that one. -/
def carried (s : Session) : List Effect → List Effect
  | [] => []
  | e :: es =>
    match s.perform e with
    | (_, some _) => [e]
    | (t, none) => e :: t.carried es

theorem carried_subset (s : Session) (es : List Effect) : s.carried es ⊆ es := by
  induction es generalizing s with
  | nil => exact List.Subset.refl []
  | cons e es ih =>
    unfold carried
    split
    · exact List.cons_subset_cons e (List.nil_subset es)
    · exact List.cons_subset_cons e (ih _)

/-- The effects of a call. Where the method for it is missing, there are none. -/
def callEffects (s : Session) (h : Handler) (call : Call) : List Effect :=
  match h.missing call.scope with
  | some _ => []
  | none => s.carried (h.react (s.callsOf h.serial) call s.context)

theorem callEffects_subset (s : Session) (h : Handler) (call : Call) :
    s.callEffects h call ⊆ h.react (s.callsOf h.serial) call s.context := by
  unfold callEffects
  cases h.missing call.scope with
  | some f => exact List.nil_subset _
  | none => exact carried_subset s _

def passEffects (s : Session) (call : Call) : List Handler → List Effect
  | [] => []
  | h :: hs =>
    s.callEffects h call ++
      match s.attempt h call with
      | (_, some _) => []
      | (t, none) => t.passEffects call hs

/-- The effects of a walk from slot `i` on, `left` schemas of `size` being still to come. -/
def walkEffects (size : Nat) : (left : Nat) → (i : Nat) → Session → List Effect
  | left, i, s =>
    if s.table.size ≠ size then []
    else match s.table.next? i, left with
      | none, _ => []
      | some _, 0 => []
      | some (i, (name, body)), left + 1 =>
        if body.isMap then
          (s.enter name).passEffects (.schema name body) s.handlers ++
            match (s.enter name).applySchema name body with
            | (_, some _) => []
            | (t, none) => walkEffects size left i t
        else walkEffects size left i s

/-- The effects of an operation on a document and its schemas. -/
def componentsEffects (s : Session) (doc : Value) : List Effect :=
  if s.context.isNone then []
  else
    (s.withSchemas (tableOf doc)).passEffects (.doc doc) s.handlers ++
      match s.docPass doc with
      | (_, some _) => []
      | (t, none) => walkEffects t.table.size t.table.size 0 t

/-- The effects that a step carries out. -/
def effects (s : Session) : Step → List Effect
  | .register candidate => [.register candidate]
  | .setName name resolved => [.setName name resolved]
  | .applyDoc doc => s.passEffects (.doc doc) s.handlers
  | .applySchema name body => s.passEffects (.schema name body) s.handlers
  | .applyComponents doc => s.componentsEffects doc
  | .callShipped call => s.carried (Cms.react call s.context)
  | _ => []

/-- What a sequence of steps leaves. -/
def after (s : Session) (steps : List Step) : Session :=
  ((s.run steps).getLast?.map Prod.fst).getD s

theorem after_cons (s : Session) (step : Step) (steps : List Step) :
    s.after (step :: steps) = (s.step step).1.after steps := by
  unfold after
  rw [run, List.getLast?_cons]
  cases ((s.step step).1.run steps).getLast? <;> rfl

theorem after_append (s : Session) (steps later : List Step) :
    s.after (steps ++ later) = (s.after steps).after later := by
  induction steps generalizing s with
  | nil => rfl
  | cons step steps ih => rw [List.cons_append, after_cons, after_cons, ih]

/-! ### What the dispatcher does by itself -/

/-- The sessions agree in the registry and in the names recorded. The dispatcher by itself has no
access to these; it sets the current name, keeps the table of schemas, and keeps the books. -/
structure Alike (s t : Session) : Prop where
  registry : t.registry = s.registry
  shippedName : t.shippedName = s.shippedName
  nextSerial : t.nextSerial = s.nextSerial
  names : t.context.map Context.nameMap = s.context.map Context.nameMap

theorem Alike.refl (s : Session) : Alike s s := ⟨rfl, rfl, rfl, rfl⟩

theorem alike_withSchemas (s : Session) (t : Option SchemaTable) : Alike s (s.withSchemas t) :=
  ⟨rfl, rfl, rfl, rfl⟩

theorem alike_enter (s : Session) (name : Value) : Alike s (s.enter name) where
  registry := rfl
  shippedName := rfl
  nextSerial := rfl
  names := by
    unfold enter
    cases s.context <;> rfl

/-- **Whatever the dispatcher does not touch**, a call leaves as its reaction does. -/
theorem invoke_view {α : Type} (view : Session → α) (h_note : ∀ t i, view (t.note i) = view t)
    (h_notify : ∀ t n, view (t.notify n) = view t)
    (h_count : ∀ t label scope outcome, view (t.count label scope outcome) = view t) (s : Session)
    (h : Handler) (call : Call) : view (s.invoke h call).1 = view (s.reaction h call).1 := by
  unfold invoke reaction
  dsimp only
  rcases s.performAll (h.react (s.callsOf h.serial) call s.context) with ⟨t, _ | f⟩
  · dsimp only
    split
    · rw [h_count, h_note]
    · rw [h_note]
  · dsimp only
    split
    · split
      · rw [h_count, h_notify, h_note]
      · rw [h_note]
      · rw [h_note]
    · rw [h_note]

theorem alike_invoke (s : Session) (h : Handler) (call : Call) :
    Alike (s.reaction h call).1 (s.invoke h call).1 where
  registry := invoke_view registry (fun _ _ => rfl) (fun _ _ => rfl) (fun _ _ _ _ => rfl) s h call
  shippedName :=
    invoke_view shippedName (fun _ _ => rfl) (fun _ _ => rfl) (fun _ _ _ _ => rfl) s h call
  nextSerial :=
    invoke_view nextSerial (fun _ _ => rfl) (fun _ _ => rfl) (fun _ _ _ _ => rfl) s h call
  names := invoke_view (fun t => t.context.map Context.nameMap) (fun _ _ => rfl) (fun _ _ => rfl)
    (fun _ _ _ _ => rfl) s h call

/-- At the end of an operation there is only a notice, and no table of schemas any more. -/
theorem alike_close (s : Session) (schemas : Bool) (answer : Except Fault Entries) :
    Alike s (s.close schemas answer) := by
  unfold close
  split <;> exact ⟨rfl, rfl, rfl, rfl⟩

end Session

open Session

/-- The step changes more of the session than its effects do: it starts the registry over, renames a
handler, or replaces the context. -/
def Step.intervenes : Step → Bool
  | newRegistry _ => true
  | rename _ _ => true
  | setContext _ => true
  | _ => false

/-! ### Relations that follow the effects -/

/-- A relation between two points of a run and the effects that were carried out in between. -/
structure Traced (R : Session → List Effect → Session → Prop) : Prop where
  /-- No effect was carried out. -/
  own : ∀ {s t}, Alike s t → R s [] t
  effect : ∀ s e, R s [e] (s.perform e).1
  trans : ∀ {s t u es fs}, R s es t → R t fs u → R s (es ++ fs) u

namespace Traced

variable {R : Session → List Effect → Session → Prop} (hR : Traced R)

include hR

theorem refl (s : Session) : R s [] s := hR.own (.refl s)

theorem trans_own {s t u : Session} {es : List Effect} (h : R s es t) (h_own : Alike t u) :
    R s es u := by
  have h_all := hR.trans h (hR.own h_own)
  rwa [List.append_nil] at h_all

omit hR in
/-- Where a call ends the operation, no other effects come after its own. -/
theorem ended {s t : Session} {es : List Effect} (h : R s es t) : R s (es ++ []) t := by
  rwa [List.append_nil]

theorem performAll (s : Session) (es : List Effect) :
    R s (s.carried es) (s.performAll es).1 := by
  induction es generalizing s with
  | nil => exact hR.refl s
  | cons e es ih =>
    have h_first := hR.effect s e
    unfold carried Session.performAll
    rcases h_perform : s.perform e with ⟨t, _ | f⟩
    · rw [h_perform] at h_first
      exact hR.trans h_first (ih t)
    · rw [h_perform] at h_first
      exact h_first

/-- **A call**, or the search for its method alone. -/
theorem attempt (s : Session) (h : Handler) (call : Call) :
    R s (s.callEffects h call) (s.attempt h call).1 := by
  unfold callEffects Session.attempt
  cases h.missing call.scope with
  | some f => exact hR.refl s
  | none => exact hR.trans_own (hR.performAll s _) (alike_invoke s h call)

/-- **A pass**, whether it is ended or not. -/
theorem pass (s : Session) (call : Call) (hs : List Handler) :
    R s (s.passEffects call hs) (s.pass call hs).1 := by
  induction hs generalizing s with
  | nil => exact hR.refl s
  | cons h hs ih =>
    have h_first := hR.attempt s h call
    unfold passEffects Session.pass
    rcases h_attempt : s.attempt h call with ⟨t, _ | f⟩
    · rw [h_attempt] at h_first
      exact hR.trans h_first (ih t)
    · rw [h_attempt] at h_first
      exact ended h_first

/-- The pass for a schema that a walk is at. -/
theorem schemaPass (s : Session) (name body : Value) :
    R s ((s.enter name).passEffects (.schema name body) s.handlers)
      ((s.enter name).applySchema name body).1 :=
  hR.trans (hR.own (alike_enter s name)) (hR.pass (s.enter name) (.schema name body) s.handlers)

/-- **A walk**, however it ends. -/
theorem walk (size left i : Nat) (names : Entries) (s : Session) :
    R s (walkEffects size left i s) (Session.walk size left i names s).1 := by
  -- the effects are read off the turns of the walk, so that both split in the same way
  fun_induction walkEffects size left i s generalizing names with
  | case1 left i s h_size =>
    rw [walk_of_size_ne h_size]
    exact hR.refl s
  | case2 left i s h_size h_next =>
    rw [walk_of_none (not_not.mp h_size) h_next]
    exact hR.refl s
  | case3 i s h_size e h_next =>
    rw [walk_of_surplus (not_not.mp h_size) h_next]
    exact hR.refl s
  | case4 i s h_size j name body left h_next h_map ih =>
    have h_size := not_not.mp h_size
    have h_first := hR.schemaPass s name body
    rcases h_pass : (s.enter name).applySchema name body with ⟨t, _ | f⟩
    · rw [h_pass] at h_first
      rw [walk_dispatches h_size h_next h_map h_pass]
      exact hR.trans h_first (ih _ _)
    · rw [h_pass] at h_first
      rw [walk_of_fault h_size h_next h_map h_pass]
      exact ended h_first
  | case5 i s h_size j name body left h_next h_map ih =>
    rw [walk_ignores (not_not.mp h_size) h_next (Bool.eq_false_iff.mpr h_map)]
    exact ih names

/-- **An operation on a document and its schemas**, the table of which comes and goes with it. -/
theorem applyComponents (s : Session) (doc : Value) :
    R s (s.componentsEffects doc) (s.applyComponents doc).1 := by
  unfold componentsEffects
  by_cases h_none : s.context.isNone
  · rw [if_pos h_none, Session.applyComponents, if_pos h_none]
    exact hR.refl s
  · have hctx : s.context.isSome := by
      rw [Option.isSome_iff_ne_none]
      exact fun h_eq => h_none (Option.isNone_iff_eq_none.mpr h_eq)
    rw [if_neg h_none]
    have h_doc : R s ((s.withSchemas (tableOf doc)).passEffects (.doc doc) s.handlers)
        (s.docPass doc).1 :=
      hR.trans (hR.own (alike_withSchemas s (tableOf doc)))
        (hR.pass (s.withSchemas (tableOf doc)) (.doc doc) s.handlers)
    rcases h_pass : s.docPass doc with ⟨t, _ | f⟩
    · -- the walk goes on from what the pass for the document left
      have h_walk : s.schemaWalk doc = Session.walk t.table.size t.table.size 0 [] t := by
        unfold schemaWalk walkStart WalkPoint.walk
        rw [h_pass]
      rw [h_pass] at h_doc
      rw [applyComponents_eq hctx (congrArg Prod.snd h_pass), h_walk]
      exact hR.trans h_doc (hR.trans_own (hR.walk _ _ 0 [] t) (alike_close _ _ _))
    · rw [h_pass] at h_doc
      rw [applyComponents_of_fault hctx (congrArg Prod.snd h_pass), h_pass]
      exact ended (hR.trans_own h_doc (alike_withSchemas t none))

/-- **Every step** that changes the registry and the context by its effects only. -/
theorem step (s : Session) (step : Step) (h_own : step.intervenes = false) :
    R s (s.effects step) (s.step step).1 := by
  cases step with
  | newRegistry | rename | setContext => cases h_own
  | register candidate => exact hR.effect s (.register candidate)
  | list | listAfterClearing | size | fingerprint | handlers => exact hR.refl s
  | readConfig bytes =>
    unfold Session.step
    dsimp only
    split
    · exact hR.refl s
    · exact hR.own ⟨rfl, rfl, rfl, rfl⟩
  | setConfig config => exact hR.own ⟨rfl, rfl, rfl, rfl⟩
  | setName name resolved =>
    rw [step_setName]
    exact hR.effect s (.setName name resolved)
  | resolvedName name =>
    unfold Session.step
    dsimp only
    split <;> exact hR.refl s
  | applyDoc doc =>
    rw [step_applyDoc]
    exact hR.pass s (.doc doc) s.handlers
  | applySchema name body =>
    rw [step_applySchema]
    exact hR.pass s (.schema name body) s.handlers
  | applyComponents doc =>
    rw [step_applyComponents]
    exact hR.applyComponents s doc
  | callShipped call =>
    rw [step_callShipped]
    exact hR.performAll s (Cms.react call s.context)

end Traced

end SchemaNaming
