import Mathlib.Data.List.Nodup
import SchemaNaming.Proofs.Dispatch.Induction
import SchemaNaming.Session.Step

/-!
# Registered handlers

What holds of the handlers in a registry, enabled or not, at every point of a session. A registry
changes when it is started over, when a candidate is offered to it, be it by a handler in the middle
of an operation, and when one of its handlers is renamed. A property that survives these is a
`RegistryInvariant`, and then it survives effects (`RegistryInvariant.performAll`), operations
(`RegistryInvariant.along`) and the steps of a session (`RegistryInvariant.points`).

Two such properties, for sessions that give their handlers no names but texts:

* `Registry.AllNamed` — the name of every handler is a text;
* `Registry.Numbered` — every handler has a serial number of its own, and none of those still to be
  given. So any choice of registered handlers is one of serial numbers (`Registry.Numbered.choose`).
-/

namespace SchemaNaming

/-- The handler's name is a text. -/
def Handler.Named (h : Handler) : Prop := ∃ n, h.name = .text n

theorem Handler.Named.nameable {h : Handler} (hh : h.Named) : h.Nameable := by
  obtain ⟨n, hn⟩ := hh
  exact nameable_of_text hn

/-- The step gives no handler a name that is no text. -/
def Step.KeepsNames : Step → Prop
  | rename _ name => ∃ n, name = .text n
  | _ => True

namespace Registry

def AllNamed (r : Registry) : Prop := ∀ h ∈ r, h.Named

def serials (r : Registry) : List Nat := r.map Handler.serial

/-- The handlers of the registry are named, and have serial numbers of their own, below `next`. -/
structure Numbered (r : Registry) (next : Nat) : Prop where
  named : r.AllNamed
  below : ∀ n ∈ r.serials, n < next
  distinct : r.serials.Nodup

end Registry

/-- A property of a registry and the next serial number that nothing destroys which changes them. -/
structure RegistryInvariant (P : Registry → Nat → Prop) : Prop where
  named : ∀ {r next}, P r next → r.AllNamed
  empty : ∀ next, P [] next
  offer : ∀ {r next} shippedName c, P r next → P (r.offer next shippedName c).1 (next + 1)
  rename : ∀ {r next} i n, P r next → P (r.rename i (.text n)) next

namespace Session

/-- The points of a session: its start, and what each step left. -/
def points (s : Session) (steps : List Step) : List Session := s :: (s.run steps).map Prod.fst

theorem points_cons (s : Session) (step : Step) (steps : List Step) :
    s.points (step :: steps) = s :: (s.step step).1.points steps := rfl

theorem finish_fst (a : Session × Option Fault) : (finish a).1 = a.1 := by
  obtain ⟨s, _ | f⟩ := a <;> rfl

section Step

variable (s : Session)

@[simp] theorem step_applyDoc (doc : Value) :
    (s.step (.applyDoc doc)).1 = (s.applyDoc doc).1 := finish_fst _

@[simp] theorem step_applySchema (name body : Value) :
    (s.step (.applySchema name body)).1 = (s.applySchema name body).1 := finish_fst _

@[simp] theorem step_applyComponents (doc : Value) :
    (s.step (.applyComponents doc)).1 = (s.applyComponents doc).1 := rfl

@[simp] theorem step_callShipped (call : Call) :
    (s.step (.callShipped call)).1 = (s.performAll (Cms.react call s.context)).1 := finish_fst _

@[simp] theorem step_setName (name resolved : Value) :
    (s.step (.setName name resolved)).1 = (s.perform (.setName name resolved)).1 := finish_fst _

end Step

end Session

namespace RegistryInvariant

open Session

variable {P : Registry → Nat → Prop} (hP : RegistryInvariant P)

include hP

theorem perform (s : Session) (e : Effect) (hs : P s.registry s.nextSerial) :
    P (s.perform e).1.registry (s.perform e).1.nextSerial := by
  -- only one kind of effect touches the registry at all
  cases e with
  | register c => exact hP.offer s.shippedName c hs
  | _ =>
    simp only [Session.perform]
    repeat' split
    all_goals exact hs

theorem performAll {s : Session} (hs : P s.registry s.nextSerial) (es : List Effect) :
    P (s.performAll es).1.registry (s.performAll es).1.nextSerial :=
  performAll_preserves (P := fun t => P t.registry t.nextSerial) hP.perform es hs

theorem handlers {s : Session} (hs : P s.registry s.nextSerial) : ∀ h ∈ s.handlers, h.Named :=
  fun h hh => hP.named hs h (List.mem_filter.mp hh).1

/-- **Operations** preserve the invariant. -/
theorem along : Along Handler.Named fun s t =>
    P s.registry s.nextSerial → P t.registry t.nextSerial where
  nameable := Handler.Named.nameable
  brought _ hb := hb.1
  refl _ := id
  trans hst htu := htu ∘ hst
  enter _ _ := id
  withSchemas _ _ := id
  notify _ _ _ := id
  call s h call _ hs := by
    have h_book : ∀ (t : Session) (ending : Ending),
        (t.book h call ending).nextSerial = t.nextSerial := fun t ending => by cases ending <;> rfl
    unfold afterCall
    rw [book_registry, h_book]
    exact hP.performAll hs _

theorem step {s : Session} (hs : P s.registry s.nextSerial) {step : Step}
    (h_step : step.KeepsNames) :
    P (s.step step).1.registry (s.step step).1.nextSerial := by
  cases step with
  | newRegistry shipped =>
    have h_empty : P [] s.nextSerial := hP.empty s.nextSerial
    cases shipped with
    | false => exact h_empty
    | true => exact hP.offer s.shippedName .shipped h_empty
  | register candidate => exact hP.offer s.shippedName candidate hs
  | rename index name =>
    obtain ⟨n, rfl⟩ := h_step
    simp only [Session.step]
    split
    · exact hs
    · exact hP.rename _ n hs
  | applyDoc doc =>
    rw [step_applyDoc]
    exact hP.along.applyDoc (hP.handlers hs) doc hs
  | applySchema name body =>
    rw [step_applySchema]
    exact hP.along.applySchema (hP.handlers hs) name body hs
  | applyComponents doc => exact hP.along.applyComponents (hP.handlers hs) doc hs
  | callShipped call =>
    rw [step_callShipped]
    exact hP.performAll hs _
  | setName name resolved =>
    rw [step_setName]
    exact hP.perform s _ hs
  | readConfig | resolvedName =>
    simp only [Session.step]
    split <;> exact hs
  | list | listAfterClearing | size | fingerprint | setConfig | handlers | setContext => exact hs

/-- **A session** that starts with the invariant has it at each of its points. -/
theorem points {s : Session} (hs : P s.registry s.nextSerial) {steps : List Step}
    (h_steps : ∀ step ∈ steps, step.KeepsNames) :
    ∀ t ∈ s.points steps, P t.registry t.nextSerial := by
  induction steps generalizing s with
  | nil => exact List.forall_mem_singleton.mpr hs
  | cons step steps ih =>
    rw [points_cons]
    refine List.forall_mem_cons.mpr ⟨hs, ih (hP.step hs (h_steps step List.mem_cons_self)) ?_⟩
    exact fun st hst => h_steps st (List.mem_cons_of_mem step hst)

end RegistryInvariant

namespace Registry

/-- What an offer adds to a registry comes under the number given, and under a text. -/
theorem offer_cases (r : Registry) (next : Nat) (shippedName : Value) (c : Candidate) :
    (r.offer next shippedName c).1 = r
      ∨ ∃ h, h.Named ∧ h.serial = next ∧ (r.offer next shippedName c).1 = r ++ [h] := by
  have h_enrol : ∀ h : Handler, (r.enrol next h).1 = r
      ∨ ∃ g, g.Named ∧ g.serial = next ∧ (r.enrol next h).1 = r ++ [g] := by
    intro h
    unfold enrol
    cases h_name : h.acceptedName? with
    | none => exact .inl rfl
    | some n =>
      have hn : h.name = .text n := Handler.name_of_acceptedName? h_name
      exact .inr ⟨{ h with serial := next }, ⟨n, hn⟩, rfl, rfl⟩
  cases c with
  | absent | nameless => exact .inl rfl
  | handler h => exact h_enrol h
  | shipped => exact h_enrol _

theorem mem_rename {r : Registry} {i : Nat} {name : Value} {h : Handler}
    (hmem : h ∈ r.rename i name) : h ∈ r ∨ h.name = name := by
  unfold rename at hmem
  split at hmem
  · exact .inl hmem
  · split at hmem
    · -- the shipped handler is renamed wherever it is
      obtain ⟨g, hg, h_eq⟩ := List.mem_map.mp hmem
      split at h_eq
      · rw [← h_eq]
        exact .inr rfl
      · rw [← h_eq]
        exact .inl hg
    · rcases List.mem_or_eq_of_mem_set hmem with h_old | h_new
      · exact .inl h_old
      · rw [h_new]
        exact .inr rfl

theorem serials_rename (r : Registry) (i : Nat) (name : Value) :
    (r.rename i name).serials = r.serials := by
  unfold rename serials
  split
  · rfl
  · next h hi =>
    split
    · rw [List.map_map]
      refine List.map_congr_left fun g _ => ?_
      simp only [Function.comp_apply]
      split <;> rfl
    · -- the new handler has the number of the one whose place it takes
      obtain ⟨h_lt, rfl⟩ := List.getElem?_eq_some_iff.mp hi
      have h_lt' : i < (r.map Handler.serial).length := by rwa [List.length_map]
      have h_serial : ({ r[i] with name } : Handler).serial = (r.map Handler.serial)[i] :=
        (List.getElem_map Handler.serial).symm
      rw [List.map_set, h_serial, List.set_getElem_self]

theorem AllNamed.rename {r : Registry} (hr : r.AllNamed) (i : Nat) (n : String) :
    (r.rename i (.text n)).AllNamed :=
  fun h hmem => (mem_rename hmem).elim (hr h) fun h_new => ⟨n, h_new⟩

/-- **Names are texts**, as long as no handler is renamed to something else. -/
theorem allNamed_invariant : RegistryInvariant fun r _ => r.AllNamed where
  named := id
  empty _ := List.forall_mem_nil _
  offer {r next} shippedName c hr := by
    rcases r.offer_cases next shippedName c with h_eq | ⟨h, hh, -, h_eq⟩
    · rwa [h_eq]
    · rw [h_eq]
      exact List.forall_mem_append.mpr ⟨hr, List.forall_mem_singleton.mpr hh⟩
  rename i n hr := hr.rename i n

/-- **Serial numbers are distinct.** -/
theorem numbered_invariant : RegistryInvariant Numbered where
  named hr := hr.named
  empty next := ⟨List.forall_mem_nil _, List.forall_mem_nil _, List.nodup_nil⟩
  offer {r next} shippedName c hr := by
    have h_named : (r.offer next shippedName c).1.AllNamed :=
      allNamed_invariant.offer shippedName c hr.named
    have h_below : ∀ n ∈ r.serials, n < next + 1 := fun n hn => Nat.lt_succ_of_lt (hr.below n hn)
    rcases r.offer_cases next shippedName c with h_eq | ⟨h, -, h_serial, h_eq⟩
    · rw [h_eq]
      exact ⟨hr.named, h_below, hr.distinct⟩
    · have h_serials : (r ++ [h] : Registry).serials = r.serials ++ [next] := by
        unfold serials
        rw [List.map_append, List.map_singleton, h_serial]
      rw [h_eq] at h_named ⊢
      refine ⟨h_named, ?_, ?_⟩
      · rw [h_serials]
        exact List.forall_mem_append.mpr
          ⟨h_below, List.forall_mem_singleton.mpr (Nat.lt_succ_self next)⟩
      · rw [h_serials]
        refine List.nodup_append.mpr ⟨hr.distinct, List.pairwise_singleton _ next, ?_⟩
        intro m hm n hn
        rw [List.mem_singleton.mp hn]
        exact Nat.ne_of_lt (hr.below m hm)
  rename i n hr := by
    refine ⟨hr.named.rename i n, ?_, ?_⟩
    · rw [serials_rename]
      exact hr.below
    · rw [serials_rename]
      exact hr.distinct

/-- Any choice of registered handlers is one of serial numbers already given. -/
theorem Numbered.choose {r : Registry} {next : Nat} (hr : r.Numbered next)
    (chosen : Handler → Bool) :
    ∃ gone : Nat → Bool, (∀ n, next ≤ n → gone n = false)
      ∧ ∀ h ∈ r, gone h.serial = chosen h := by
  refine ⟨fun n => r.any fun h => h.serial = n && chosen h, fun n hn => ?_, fun h hh => ?_⟩
  · -- no handler has such a number
    refine List.any_eq_false.mpr fun h hh h_eq => ?_
    have h_serial : h.serial = n := of_decide_eq_true (Bool.and_eq_true_iff.mp h_eq).1
    have h_lt : h.serial < next := hr.below _ (List.mem_map_of_mem hh)
    omega
  · cases h_chosen : chosen h with
    | true => exact List.any_eq_true.mpr ⟨h, hh, by simp [h_chosen]⟩
    | false =>
      -- a handler of the same number would be the same handler
      refine List.any_eq_false.mpr fun g hg h_eq => ?_
      obtain ⟨h_serial, h_g⟩ := Bool.and_eq_true_iff.mp h_eq
      have h_same : g = h := List.inj_on_of_nodup_map hr.distinct hg hh (of_decide_eq_true h_serial)
      rw [h_same, h_chosen] at h_g
      cases h_g

end Registry

end SchemaNaming
