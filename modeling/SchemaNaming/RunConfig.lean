import SchemaNaming.Value.Basic

/-!
# Run configuration

A run configuration selects the handlers that take part: with an allow list only those on it, and
never one that is disabled.

* `RunConfig` — the two lists;
* `RunConfig.isEnabled` — the selection.
-/

namespace SchemaNaming

/-- Which handlers take part in a run. -/
structure RunConfig where
  /-- The allow list; without one every handler is allowed. -/
  enabled : Option (List String) := none
  /-- The names never called; an absent list disables nothing. -/
  disabled : Option (List String) := some []
  deriving DecidableEq, Repr, Inhabited

namespace RunConfig

/-- The name is one of the texts. -/
def lists (names : List String) (name : Value) : Bool :=
  names.any fun s => name.same (.text s)

/-- A disabled name is not selected; of the others, those on the allow list if there is one. -/
def isEnabled (config : RunConfig) (name : Value) : Bool :=
  !lists (config.disabled.getD []) name &&
    (match config.enabled with
      | some names => lists names name
      | none => true)

end RunConfig

end SchemaNaming
