import Mathlib
import SchemaNaming.Config.Data

/-!
# Outcomes of steps that may fail

What the steps of reading a YAML text come to is said in two ways. Steps with a state have triples,
which the verification condition generator puts together; results without a state have an
`Outcome`, a property of the result or of the failure. A triple says what the outcome of a run is
(`run_of_triple`).
-/

set_option mvcgen.warning false

open Std.Do

namespace SchemaNaming.Config

/-- A result has the property `P`, a failure the property `E`. -/
def Outcome {ε α : Type} (P : α → Prop) (E : ε → Prop) : Except ε α → Prop
  | .ok a => P a
  | .error e => E e

namespace Outcome

variable {ε α β : Type} {P : α → Prop} {Q : β → Prop} {E : ε → Prop}

theorem mono {P' : α → Prop} {E' : ε → Prop} {x : Except ε α} (hx : Outcome P E x)
    (hP : ∀ a, P a → P' a) (hE : ∀ e, E e → E' e) : Outcome P' E' x := by
  cases x with
  | ok a => exact hP a hx
  | error e => exact hE e hx

theorem bind {x : Except ε α} {f : α → Except ε β} (hx : Outcome P E x)
    (hf : ∀ a, P a → Outcome Q E (f a)) : Outcome Q E (x >>= f) := by
  cases x with
  | ok a => exact hf a hx
  | error e => exact hx

theorem foldlM {f : α → β → Except ε α} {l : List β} {a : α} (ha : P a)
    (hf : ∀ a b, P a → Outcome P E (f a b)) : Outcome P E (l.foldlM f a) := by
  induction l generalizing a with
  | nil => exact ha
  | cons b l ih => exact (hf a b ha).bind fun a ha => ih ha

theorem flatMapM {f : α → Except ε (List β)} {l : List α}
    (hf : ∀ a, Outcome (fun _ => True) E (f a)) : Outcome (fun _ => True) E (l.flatMapM f) := by
  unfold List.flatMapM
  generalize [] = found
  induction l generalizing found with
  | nil => trivial
  | cons a l ih => exact Outcome.bind (hf a) fun bs _ => ih (bs :: found)

end Outcome

/-! ### Triples -/

section

variable {σ α : Type} {x : StateT σ (Except Failure) α}

/-- A triple says what a run comes to. -/
theorem run_of_triple {P : σ → Prop} {Q : α → σ → Prop} {E : Failure → Prop} {s : σ}
    (h : ⦃fun s => ⌜P s⌝⦄ x ⦃post⟨fun a s => ⌜Q a s⌝, fun e => ⌜E e⌝⟩⦄) (hs : P s) :
    Outcome (fun r => Q r.1 r.2) E (x.run s) := by
  have h_run : (⊢ₛ wp⟦x.run s⟧ post⟨fun r => ⌜Q r.1 r.2⌝, fun e => ⌜E e⌝⟩) := fun _ => h s hs
  exact Except.of_wp_eq rfl (Outcome (fun r : α × σ => Q r.1 r.2) E) h_run

/-- A part of the precondition that does not depend on the state. -/
theorem triple_of_pure {P : σ → Prop} {B : Prop} {Q : PostCond α (.arg σ (.except Failure .pure))}
    (h : B → ⦃fun s => ⌜P s⌝⦄ x ⦃Q⦄) : ⦃fun s => ⌜P s ∧ B⌝⦄ x ⦃Q⦄ :=
  fun s h_pre => h h_pre.2 s h_pre.1

@[spec]
theorem throw_spec (e : Failure) {Q : PostCond α (.arg σ (.except Failure .pure))} :
    ⦃fun _ => Q.2.1 e⦄ (throw e : StateT σ (Except Failure) α) ⦃Q⦄ :=
  fun _ h => h

@[spec]
theorem discard_spec {Q : PostCond PUnit (.arg σ (.except Failure .pure))} :
    ⦃wp⟦x⟧ (fun _ => Q.1 ⟨⟩, Q.2)⦄ discard x ⦃Q⦄ := by
  have h : discard x = (fun _ => PUnit.unit) <$> x := rfl
  rw [h]
  mvcgen

end

end SchemaNaming.Config
