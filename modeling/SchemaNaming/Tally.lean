import SchemaNaming.Handler.Basic
import SchemaNaming.Value.Text

/-!
# The tally of handler calls

Calls are counted by the handler's label, the scope and the outcome.

* `Tally.count` — how often a key was counted;
* `Tally.bump` — counts a key once more;
* `Tally.sorted` — the counts in ascending order of their keys.
-/

namespace SchemaNaming

/-- How a counted call ended. -/
inductive Outcome where
  | ok
  | error
  deriving DecidableEq, Repr

namespace Outcome

def label : Outcome → String
  | ok => "ok"
  | error => "error"

end Outcome

/-- What is counted together: the label of a handler, a scope and an outcome. -/
structure TallyKey where
  handler : String
  scope : Scope
  outcome : Outcome
  deriving DecidableEq, Repr

/-- The counts, in the order of the first call counted. -/
abbrev Tally := List (TallyKey × Nat)

namespace Tally

def count : Tally → TallyKey → Nat
  | [], _ => 0
  | e :: t, k => if e.1 = k then e.2 else count t k

def bump : Tally → TallyKey → Tally
  | [], k => [(k, 1)]
  | e :: t, k => if e.1 = k then (e.1, e.2 + 1) :: t else e :: bump t k

@[simp] theorem count_bump_self (t : Tally) (k : TallyKey) :
    (t.bump k).count k = t.count k + 1 := by
  induction t with
  | nil => simp [bump, count]
  | cons e t ih => by_cases h : e.1 = k <;> simp [bump, count, h, ih]

theorem count_bump_of_ne (t : Tally) {k l : TallyKey} (h : l ≠ k) :
    (t.bump k).count l = t.count l := by
  induction t with
  | nil => simp [bump, count, h.symm]
  | cons e t ih =>
    by_cases hk : e.1 = k
    · simp [bump, count, hk, h.symm]
    · simp only [bump, if_neg hk, count, ih]

/-- The order of the counter's lines: by handler, then scope, then outcome. -/
def precedes (a b : TallyKey × Nat) : Bool :=
  let ka := (a.1.handler, a.1.scope.label, a.1.outcome.label)
  let kb := (b.1.handler, b.1.scope.label, b.1.outcome.label)
  if ka.1 = kb.1 then
    if ka.2.1 = kb.2.1 then decide (ka.2.2 ≤ kb.2.2) else decide (ka.2.1 < kb.2.1)
  else decide (ka.1 < kb.1)

/-- The counts in ascending order of handler, scope and outcome. -/
def sorted (t : Tally) : Tally := t.mergeSort precedes

end Tally

/-- The label under which a handler of the given name is counted: the name's text, or `unknown`
where the name is empty or absent. -/
def labelOf (name : Value) : Except Fault String :=
  if name.truthy then name.generalText else .ok "unknown"

end SchemaNaming
