import SchemaNaming.Handler.Cms
import SchemaNaming.Notice
import SchemaNaming.Digest
import SchemaNaming.Text.Blank

/-!
# The registry of handlers

A registry holds handlers in the order of their registration. Handlers come in one at a time and
never leave; one whose name is no text, or blank, is turned away with a notice. Names may repeat.

* `Registry.offer` — takes in a candidate or turns it away;
* `Registry.rename` — gives a registered handler another name, which is not checked again;
* `Registry.stream` — the bytes that identify the sequence of names, each name ended by a zero;
* `Registry.fingerprint` — the first sixteen hexadecimal digits of their digest.
-/

namespace SchemaNaming

/-- The registered handlers, in the order of registration. -/
abbrev Registry := List Handler

namespace Handler

/-- The name under which a registry takes the handler: a text that is not blank. -/
def acceptedName? (h : Handler) : Option String :=
  match h.name with
  | .text s => if isBlankText s then none else some s
  | _ => none

theorem name_of_acceptedName? {h : Handler} {n : String} (hn : h.acceptedName? = some n) :
    h.name = .text n := by
  unfold acceptedName? at hn
  split at hn
  · next s hs =>
    split at hn
    · cases hn
    · rw [hs, Option.some.inj hn]
  · cases hn

end Handler

namespace Registry

/-- Takes in the handler under a serial number if its name is acceptable. -/
def enrol (serial : Nat) (r : Registry) (h : Handler) : Registry × Notice :=
  match h.acceptedName? with
  | some s => (r ++ [{ h with serial }], .registered s (r.length + 1))
  | none => (r, .candidateUnnamed h.typeName)

/-- Takes in the candidate under a serial number if it is a handler with an acceptable name. The
shipped handler comes under the name `shippedName`. -/
def offer (serial : Nat) (shippedName : Value) (r : Registry) : Candidate → Registry × Notice
  | .absent => (r, .candidateAbsent)
  | .nameless t => (r, .candidateUnnamed t)
  | .handler h => r.enrol serial h
  | .shipped => r.enrol serial (Handler.builtin shippedName)

def names (r : Registry) : List Value := r.map Handler.name

/-- The place that an index stands for: a negative one counts from the end. -/
def place? (r : Registry) (index : Int) : Option Nat :=
  let i := if index < 0 then index + r.length else index
  if 0 ≤ i ∧ i < r.length then some i.toNat else none

/-- The registry with the handler at place `i` renamed. The shipped handler is one and the same
wherever it is registered, so it is renamed everywhere. Other handlers are told apart by their
registrations: what it means to rename one that was registered twice is left open here, and the
record at place `i` alone takes the new name. -/
def rename (r : Registry) (i : Nat) (name : Value) : Registry :=
  match r[i]? with
  | none => r
  | some h =>
    if h.shipped then r.map fun g => if g.shipped then { g with name } else g
    else r.set i { h with name }

/-- Each name in UTF-8 with a zero byte behind it. -/
def stream : Registry → Except Fault (List UInt8)
  | [] => .ok []
  | h :: r =>
    match h.name with
    | .text s => (stream r).map fun bytes => s.toUTF8.toList ++ 0 :: bytes
    | v => .error (.lacks v.typeName "encode")

/-- A short digest of the sequence of names. -/
def fingerprint (r : Registry) : Except Fault String :=
  (stream r).map fun bytes => String.ofList ((Digest.sha256Hex bytes).take 16)

/-- What an offer adds does not depend on what the registry holds. -/
theorem offer_eq_append (serial : Nat) (shippedName : Value) (r : Registry) (c : Candidate) :
    (r.offer serial shippedName c).1 = r ++ (Registry.offer serial shippedName [] c).1 := by
  have h_enrol : ∀ h : Handler, (r.enrol serial h).1 = r ++ (Registry.enrol serial [] h).1 := by
    intro h
    unfold enrol
    cases h.acceptedName? with
    | none => exact (List.append_nil r).symm
    | some n => rfl
  cases c with
  | absent | nameless => exact (List.append_nil r).symm
  | handler h => exact h_enrol h
  | shipped => exact h_enrol _

/-- Nothing leaves a registry when a candidate is offered. -/
theorem offer_isPrefix (serial : Nat) (shippedName : Value) (r : Registry) (c : Candidate) :
    r <+: (r.offer serial shippedName c).1 := by
  rw [offer_eq_append]
  exact List.prefix_append _ _

end Registry

end SchemaNaming
