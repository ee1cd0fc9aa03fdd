import SchemaNaming.Handler.Basic

/-!
# Notices

What the library reports while it works. A notice says what happened; `Notice.text` words it, and
`Notice.level` tells how loudly.
-/

namespace SchemaNaming

/-- The weight of a notice. -/
inductive Level where
  | debug
  | info
  | warning
  deriving DecidableEq, Repr

/-- Something worth reporting. -/
inductive Notice where
  /-- Nothing was offered to a registry. -/
  | candidateAbsent
  /-- A candidate of the given type has no usable name. -/
  | candidateUnnamed (typeName : String)
  /-- A handler was registered, and there are now `count`. -/
  | registered (name : String) (count : Nat)
  /-- A handler's call failed. -/
  | failed (scope : Scope) (name : String) (fault : Fault)
  | noSchemas
  /-- All schemas of a document were handled; `renamed` of them go by another name now. -/
  | applied (schemas renamed : Nat)
  | configUnreadable
  /-- A configuration file holds neither JSON nor YAML. -/
  | configUnparsable
  /-- A configuration file has the wrong shape. -/
  | configInvalid
  | configLoaded
  deriving DecidableEq, Repr

namespace Notice

def level : Notice → Level
  | failed .. | configUnreadable | configUnparsable | configInvalid => .warning
  | configLoaded => .info
  | _ => .debug

/-- The wording of the notice. The time that a document took is not part of what is known here and
stands as `_`; the notices about a configuration leave their details open. -/
def text : Notice → String
  | candidateAbsent => "extensions.register skipped: handler is None"
  | candidateUnnamed t => "extensions.register skipped: blank name on " ++ t
  | registered name count => s!"extensions.register name={name} count={count}"
  | failed scope name fault =>
    "extensions." ++ scope.label ++ " handler=" ++ name ++ " failed: " ++ fault.message
  | noSchemas => "extensions.apply_components no components.schemas; doc-level only"
  | applied schemas renamed =>
    s!"extensions.apply_components schemas={schemas} renamed={renamed} total_ms=_"
  | configUnreadable => "Cannot read extensions config %s: %s"
  | configUnparsable => "Failed to parse extensions config %s as JSON or YAML: %s"
  | configInvalid => "Invalid extensions config %s: %s"
  | configLoaded => "Loaded extensions config from %s (enabled=%s disabled=%s)"

end Notice

end SchemaNaming
