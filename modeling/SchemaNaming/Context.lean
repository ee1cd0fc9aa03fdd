import SchemaNaming.Value.Basic

/-!
# The naming context

A context is the naming state of one document. Its caller owns it; handlers write resolved
identifiers into it, and the generator of code reads them back.

* `Context` — the document, the current name, a handle of the caller and the names resolved so far;
* `Context.setName` — records a name, creating the map on the first write;
* `Context.resolvedName` — reads a name back, unresolved names standing for themselves.
-/

namespace SchemaNaming

/-- The naming state of one document. -/
structure Context where
  /-- The document, for the caller's use. -/
  doc : Value := .null
  /-- The name of the schema at hand, as resolved so far. -/
  schemaName : Value := .text ""
  /-- A handle of the caller, untouched by the library. -/
  caller : Value := .null
  /-- What each recorded name resolves to; absent until the first is recorded. -/
  nameMap : Option Entries := none
  deriving Inhabited

namespace Context

/-- The recorded names, none where no map was created yet. -/
def names (c : Context) : Entries := c.nameMap.getD []

/-- Records `resolved` under `name`. A value that cannot be a key fails after the map was
created. -/
def setName (c : Context) (name resolved : Value) : Context × Option Fault :=
  match name.unhashable? with
  | some t => ({ c with nameMap := some c.names }, some (.unhashable t))
  | none => ({ c with nameMap := some (c.names.set name resolved) }, none)

/-- The name recorded for `name`, or `name` itself. -/
def resolvedName (c : Context) (name : Value) : Except Fault Value :=
  if c.names.isEmpty then .ok name
  else match name.unhashable? with
    | some t => .error (.unhashable t)
    | none => .ok ((c.names.find? name).getD name)

end Context

end SchemaNaming
