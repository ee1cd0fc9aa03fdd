import SchemaNaming.Proofs.Dispatch.Effects

/-!
# What a registry holds

A registry is offered candidates by its owner and, while documents are dispatched, by handlers.
`Session.registry_history` says what it holds at any point of a run: of all the candidates offered
so far, in the order of the offers, those that had an acceptable name when they were offered.

An `Offer` is one call of `register`, with everything that the call can see. `Session.offers` has
the offers of a run, one after another. They are read off the effects that the run carries out, so
that offers made in the middle of a call that fails, or of an operation that is ended, are among
them, and those that such a call did not get to are not.

Names may change later, and a registry does not look at them again. So handlers are compared up to
their names (`Handler.unnamed`), the serial number of the offer telling them apart.
-/

namespace SchemaNaming

namespace Handler

/-- The handler whatever it is called. -/
def unnamed (h : Handler) : Handler := { h with name := .null }

/-- The name is a text with a character that is not blank. -/
def wellNamed (h : Handler) : Bool :=
  match h.name with
  | .text n => n.toList.any fun c => !Text.isBlank c
  | _ => false

/-- A registry accepts exactly the names that it should. -/
theorem acceptedName?_eq_none_iff (h : Handler) :
    h.acceptedName? = none ↔ h.wellNamed = false := by
  unfold acceptedName? wellNamed isBlankText
  cases h.name with
  | text n => simp
  | _ => simp

end Handler

/-- A call of `register`. -/
structure Offer where
  /-- The number of the call. -/
  serial : Nat
  candidate : Candidate
  /-- What the shipped handler is called at the time. -/
  shippedName : Value

namespace Offer

/-- The handler that is offered, under its name at the time. -/
def handler? (o : Offer) : Option Handler :=
  match o.candidate with
  | .absent => none
  | .nameless _ => none
  | .handler h => some { h with serial := o.serial }
  | .shipped => some { Handler.builtin o.shippedName with serial := o.serial }

/-- The handler that is offered, if its name at the time is acceptable. -/
def accepted? (o : Offer) : Option Handler := o.handler?.filter Handler.wellNamed

end Offer

def Effect.candidate? : Effect → Option Candidate
  | register c => some c
  | _ => none

namespace Registry

/-- **One offer** adds the handler that is offered if its name is acceptable, and nothing else. -/
theorem offer_eq (serial : Nat) (shippedName : Value) (r : Registry) (c : Candidate) :
    (r.offer serial shippedName c).1 = r ++ (Offer.accepted? ⟨serial, c, shippedName⟩).toList := by
  have h_enrol : ∀ h : Handler, (r.enrol serial h).1
      = r ++ ((some { h with serial := serial }).filter Handler.wellNamed).toList := by
    intro h
    unfold enrol
    cases h_name : h.acceptedName? with
    | none =>
      have h_not : Handler.wellNamed { h with serial := serial } = false :=
        h.acceptedName?_eq_none_iff.mp h_name
      rw [Option.filter_some, h_not]
      exact (List.append_nil r).symm
    | some n =>
      have h_well : Handler.wellNamed { h with serial := serial } = true := by
        rw [← Bool.not_eq_false]
        intro h_not
        rw [h.acceptedName?_eq_none_iff.mpr h_not] at h_name
        cases h_name
      rw [Option.filter_some, h_well]
      rfl
  cases c with
  | absent | nameless => exact (List.append_nil r).symm
  | handler h => exact h_enrol h
  | shipped => exact h_enrol _

theorem unnamed_rename (r : Registry) (i : Nat) (name : Value) :
    (r.rename i name).map Handler.unnamed = r.map Handler.unnamed := by
  unfold rename
  split
  · rfl
  · next h hi =>
    split
    · -- the shipped handler is renamed wherever it is
      rw [List.map_map]
      refine List.map_congr_left fun g _ => ?_
      rw [Function.comp_apply]
      split <;> rfl
    · obtain ⟨h_lt, rfl⟩ := List.getElem?_eq_some_iff.mp hi
      have h_lt' : i < (r.map Handler.unnamed).length := by rwa [List.length_map]
      have h_same : Handler.unnamed { r[i] with name } = (r.map Handler.unnamed)[i] :=
        (List.getElem_map Handler.unnamed).symm
      rw [List.map_set, h_same, List.set_getElem_self]

end Registry

namespace Session

/-- The offers among effects that start in the session. -/
def offersIn (s : Session) (es : List Effect) : List Offer :=
  ((es.filterMap Effect.candidate?).zipIdx s.nextSerial).map fun p => ⟨p.2, p.1, s.shippedName⟩

/-- **The offers of a run**, one after another. -/
def offers (s : Session) : List Step → List Offer
  | [] => []
  | step :: steps => s.offersIn (s.effects step) ++ (s.step step).1.offers steps

/-- From `s` to `t` the registry grew by what was accepted of the offers among the effects. -/
structure Grows (s : Session) (es : List Effect) (t : Session) : Prop where
  shippedName : t.shippedName = s.shippedName
  nextSerial : t.nextSerial = s.nextSerial + (s.offersIn es).length
  registry : t.registry = s.registry ++ (s.offersIn es).filterMap Offer.accepted?

theorem offersIn_append (s : Session) (es fs : List Effect) {t : Session}
    (h_name : t.shippedName = s.shippedName)
    (h_serial : t.nextSerial = s.nextSerial + (s.offersIn es).length) :
    s.offersIn (es ++ fs) = s.offersIn es ++ t.offersIn fs := by
  unfold offersIn at h_serial ⊢
  rw [List.length_map, List.length_zipIdx] at h_serial
  rw [List.filterMap_append, List.zipIdx_append, List.map_append, h_name, h_serial]

/-- An effect that offers nothing has no access to the registry. -/
theorem perform_of_no_candidate {e : Effect} (he : e.candidate? = none) (s : Session) :
    (s.perform e).1.registry = s.registry ∧ (s.perform e).1.shippedName = s.shippedName
      ∧ (s.perform e).1.nextSerial = s.nextSerial := by
  cases e with
  | register c => cases he
  | _ =>
    unfold perform
    dsimp only
    repeat' split
    all_goals exact ⟨rfl, rfl, rfl⟩

/-- **The registry follows the effects**, of whatever handlers. -/
theorem traced_grows : Traced Grows where
  own h := ⟨h.shippedName, h.nextSerial, by rw [h.registry]; exact (List.append_nil _).symm⟩
  effect s e := by
    cases he : e.candidate? with
    | none =>
      obtain ⟨h_registry, h_name, h_serial⟩ := perform_of_no_candidate he s
      have h_offers : s.offersIn [e] = [] := by
        unfold offersIn
        rw [List.filterMap_cons_none he]
        rfl
      refine ⟨h_name, ?_, ?_⟩
      · rw [h_serial, h_offers]
        rfl
      · rw [h_registry, h_offers]
        exact (List.append_nil _).symm
    | some c =>
      obtain rfl : e = .register c := by
        cases e with
        | register d => rw [Option.some.inj he]
        | _ => cases he
      refine ⟨rfl, rfl, ?_⟩
      change (s.registry.offer s.nextSerial s.shippedName c).1
        = s.registry ++ [(⟨s.nextSerial, c, s.shippedName⟩ : Offer)].filterMap Offer.accepted?
      rw [Registry.offer_eq, List.filterMap_cons]
      cases Offer.accepted? ⟨s.nextSerial, c, s.shippedName⟩ <;> rfl
  trans {s t u es fs} hst htu := by
    have h_offers := offersIn_append s es fs hst.shippedName hst.nextSerial
    refine ⟨htu.shippedName.trans hst.shippedName, ?_, ?_⟩
    · rw [htu.nextSerial, hst.nextSerial, h_offers, List.length_append, Nat.add_assoc]
    · rw [htu.registry, hst.registry, h_offers, List.filterMap_append, List.append_assoc]

/-! ### Runs -/

/-- **One step** that does not start the registry over. -/
theorem step_grows (s : Session) (step : Step) (h_keep : ∀ shipped, step ≠ .newRegistry shipped) :
    (s.step step).1.nextSerial = s.nextSerial + (s.offersIn (s.effects step)).length
      ∧ (s.step step).1.registry.map Handler.unnamed
        = (s.registry ++ (s.offersIn (s.effects step)).filterMap Offer.accepted?).map
            Handler.unnamed := by
  cases h_own : step.intervenes with
  | false =>
    have h := traced_grows.step s step h_own
    exact ⟨h.nextSerial, congrArg _ h.registry⟩
  | true =>
    -- the registry may be renamed in, which is not an offer
    cases step with
    | newRegistry shipped => exact absurd rfl (h_keep shipped)
    | setContext context => exact ⟨rfl, congrArg _ (List.append_nil _).symm⟩
    | rename index name =>
      have h_none : (s.offersIn (s.effects (.rename index name))).filterMap Offer.accepted? = [] :=
        rfl
      rw [h_none, List.append_nil]
      unfold Session.step
      dsimp only
      split
      · exact ⟨rfl, rfl⟩
      · exact ⟨rfl, Registry.unnamed_rename _ _ _⟩
    | _ => cases h_own

theorem serials_offersIn (s : Session) (es : List Effect) :
    (s.offersIn es).map Offer.serial = List.range' s.nextSerial (s.offersIn es).length := by
  unfold offersIn
  rw [List.map_map, List.length_map, List.length_zipIdx]
  exact List.zipIdx_map_snd s.nextSerial _

theorem serials_offers (s : Session) {steps : List Step}
    (h_keep : ∀ step ∈ steps, ∀ shipped, step ≠ .newRegistry shipped) :
    (s.offers steps).map Offer.serial = List.range' s.nextSerial (s.offers steps).length := by
  induction steps generalizing s with
  | nil => rfl
  | cons step steps ih =>
    obtain ⟨h_serial, -⟩ := step_grows s step (h_keep step List.mem_cons_self)
    have ih := ih (s.step step).1 fun st hst => h_keep st (List.mem_cons_of_mem _ hst)
    rw [offers, List.map_append, serials_offersIn, ih, h_serial, List.range'_append_1,
      List.length_append]

/-- What a run adds to the registry. -/
theorem unnamed_after (s : Session) {steps : List Step}
    (h_keep : ∀ step ∈ steps, ∀ shipped, step ≠ .newRegistry shipped) :
    (s.after steps).registry.map Handler.unnamed
      = s.registry.map Handler.unnamed
        ++ ((s.offers steps).filterMap Offer.accepted?).map Handler.unnamed := by
  induction steps generalizing s with
  | nil => exact (List.append_nil _).symm
  | cons step steps ih =>
    obtain ⟨-, h_registry⟩ := step_grows s step (h_keep step List.mem_cons_self)
    have ih := ih (s.step step).1 fun st hst => h_keep st (List.mem_cons_of_mem _ hst)
    rw [after_cons, ih, h_registry, offers, List.map_append, List.filterMap_append,
      List.map_append, List.append_assoc]

/-- **The history of a registry.** At every point of a run that goes on with one registry, whatever
handlers do, fail or end meanwhile, and whatever they are renamed to, the registry holds what it
held at the start and, behind that, the handlers offered since whose names were texts and not blank
when they were offered; in the order of the offers, which are numbered one after another, and as
often as they were offered. Its size is the length of the list of it, also after such a list was
emptied, and it begins with what it held at any earlier point. -/
theorem registry_history {s : Session} {before later : List Step}
    (h_keep : ∀ step ∈ before ++ later, ∀ shipped, step ≠ .newRegistry shipped) :
    (s.after before).registry.map Handler.unnamed
        = s.registry.map Handler.unnamed
          ++ ((s.offers before).filterMap Offer.accepted?).map Handler.unnamed
      ∧ (s.offers before).map Offer.serial = List.range' s.nextSerial (s.offers before).length
      ∧ (∃ names, ((s.after before).step .list).2 = .ok (.names names)
          ∧ ((s.after before).step .listAfterClearing).2 = .ok (.names names)
          ∧ ((s.after before).step .size).2 = .ok (.number names.length)
          ∧ names = (s.after before).registry.names)
      ∧ (s.after before).registry.map Handler.unnamed
        <+: (s.after (before ++ later)).registry.map Handler.unnamed := by
  have h_before : ∀ step ∈ before, ∀ shipped, step ≠ .newRegistry shipped :=
    fun step h => h_keep step (List.mem_append_left _ h)
  refine ⟨s.unnamed_after h_before, s.serials_offers h_before, ?_, ?_⟩
  · refine ⟨(s.after before).registry.names, rfl, rfl, ?_, rfl⟩
    unfold Registry.names
    rw [List.length_map]
    rfl
  · rw [after_append, unnamed_after _ fun step h => h_keep step (List.mem_append_right _ h)]
    exact List.prefix_append _ _

/-- A run with offers of all kinds: nothing, a blank name, a handler that registers another, one
that ends the operation right after that, and the same handler once more after it was renamed. -/
def arrivals : List Step :=
  [.register .absent, .register (.handler (.idle (.text " "))),
   .register (.handler (.registering (.text "host") [.doc] (.handler (.idle (.text "guest"))))),
   .register (.handler (.failing (.text "quitter") [.doc] (.raised .exit "stop"))),
   .applyDoc (.map []), .rename 0 .null,
   .register (.handler (.registering (.text "host") [.doc] (.handler (.idle (.text "guest")))))]

theorem registry_history_arrivals :
    (∀ step ∈ arrivals ++ [.register .shipped], ∀ shipped, step ≠ .newRegistry shipped)
      ∧ (({} : Session).after arrivals).registry.names
        = [.null, .text "quitter", .text "guest", .text "host"]
      ∧ (({} : Session).offers arrivals).map Offer.serial = [0, 1, 2, 3, 4, 5]
      ∧ (({} : Session).after arrivals).registry.map Handler.unnamed
        <+: (({} : Session).after (arrivals ++ [.register .shipped])).registry.map
            Handler.unnamed := by
  have h_keep : ∀ step ∈ arrivals ++ [.register .shipped],
      ∀ shipped, step ≠ .newRegistry shipped := by
    intro step h_step shipped h_eq
    rw [h_eq] at h_step
    simp [arrivals] at h_step
  obtain ⟨-, h_serials, -, h_prefix⟩ := registry_history (s := {}) h_keep
  exact ⟨h_keep, rfl, h_serials, h_prefix⟩

end Session

end SchemaNaming
