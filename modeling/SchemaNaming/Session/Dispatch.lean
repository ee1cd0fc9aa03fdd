import SchemaNaming.Session.Basic

/-!
# Dispatching

Dispatching calls the enabled handlers in the order of their registration: for a document, for one
schema, or for a document and all the schemas under its `components`.

* `Session.invoke` — calls one handler; a contained fault becomes a notice and is counted, any
  other ends the operation;
* `Session.attempt` — looks up the handler's method first, without which the operation ends;
* `Session.callsOf` — how many calls a handler has had;
* `Session.pass` — calls each of a list of handlers once;
* `Session.applyDoc`, `Session.applySchema` — one pass over the handlers that are enabled when it
  starts;
* `Session.walk` — one pass per schema, in the order of the table of schemas, which the handlers
  may edit meanwhile;
* `Session.applyComponents` — a pass for the document, then the walk over its schemas.

Each operation answers with the session it leaves and with the fault that ended it, if one did.
-/

namespace SchemaNaming

namespace Session

def activeConfig (s : Session) : RunConfig := s.config.getD {}

/-- The handlers that take part, in the order of registration. -/
def handlers (s : Session) : List Handler :=
  s.registry.filter fun h => s.activeConfig.isEnabled h.name

/-- Counts a call of a handler under its label. -/
def count (s : Session) (label : String) (scope : Scope) (outcome : Outcome) : Session :=
  { s with tally := s.tally.bump ⟨label, scope, outcome⟩ }

def note (s : Session) (i : Invocation) : Session := { s with history := s.history ++ [i] }

/-- How many calls the handler with a serial number has had. -/
def callsOf (s : Session) (serial : Nat) : Nat :=
  s.history.countP fun i => i.handler.serial = serial

/-- Calls a handler. A handler whose name has no text cannot be counted, and the fault of the name
ends the operation. -/
def invoke (s : Session) (h : Handler) (call : Call) : Session × Option Fault :=
  let context := s.context
  match s.performAll (h.react (s.callsOf h.serial) call context) with
  | (s, none) =>
    let s := s.note ⟨h, call, context, .returned⟩
    match labelOf h.name with
    | .ok label => (s.count label call.scope .ok, none)
    | .error fault => (s, some fault)
  | (s, some fault) =>
    if fault.contained then
      let s := s.note ⟨h, call, context, .failed fault⟩
      match h.name.generalText, labelOf h.name with
      | .ok name, .ok label =>
        ((s.notify (.failed call.scope name fault)).count label call.scope .error, none)
      | .error fault, _ => (s, some fault)
      | _, .error fault => (s, some fault)
    else (s.note ⟨h, call, context, .aborted fault⟩, some fault)

/-- Looks up the method of a handler for a call, and calls the handler. The lookup is not part of
the call, so its fault ends the operation, whatever it is. -/
def attempt (s : Session) (h : Handler) (call : Call) : Session × Option Fault :=
  match h.missing call.scope with
  | some fault => (s, some fault)
  | none => s.invoke h call

/-- Calls each handler once, in order, unless one ends the operation. -/
def pass (s : Session) (call : Call) : List Handler → Session × Option Fault
  | [] => (s, none)
  | h :: hs =>
    match s.attempt h call with
    | (s, some fault) => (s, some fault)
    | (s, none) => pass s call hs

/-- Calls the enabled handlers for a document. -/
def applyDoc (s : Session) (doc : Value) : Session × Option Fault :=
  s.pass (.doc doc) s.handlers

/-- Calls the enabled handlers for a schema. -/
def applySchema (s : Session) (name body : Value) : Session × Option Fault :=
  s.pass (.schema name body) s.handlers

def currentName (s : Session) : Value := (s.context.map Context.schemaName).getD .null

/-- Makes `name` the current name. -/
def enter (s : Session) (name : Value) : Session :=
  { s with context := s.context.map fun c => { c with schemaName := name } }

/-- Walks the schemas from slot `i` on. At the start of the walk there were `size` of them,
`left` of which are still to come. Answers with the names of the schemas walked, each with the
name it goes by after its pass. -/
def walk (size : Nat) : (left : Nat) → (i : Nat) → (names : Entries) → Session →
    Session × Except Fault Entries
  | left, i, names, s =>
    let t := s.schemas.getD {}
    -- The size is compared whenever the walk goes on, also past the last entry.
    if t.size ≠ size then (s, .error .sizeChanged)
    else match t.next? i, left with
      | none, _ => (s, .ok names)
      | some _, 0 => (s, .error .keysChanged)
      | some (i, (name, body)), left + 1 =>
        if body.isMap then
          match (s.enter name).applySchema name body with
          | (s, some fault) => (s, .error fault)
          | (s, none) => walk size left i (names.set name s.currentName) s
        else walk size left i names s

/-- The schemas under the components of a document. -/
def schemasOf? (doc : Value) : Option Entries := do
  let components ← (← doc.entries?).get? "components"
  let schemas ← (← components.entries?).get? "schemas"
  schemas.entries?

/-- How many schemas go by a name other than their own. -/
def renamed (names : Entries) : Nat := names.countP fun e => !e.1.equal e.2

/-- Calls the enabled handlers for a document and for each of its schemas; answers with the name
that each schema goes by in the end. Without a context there is nothing to do. The table of schemas
stands from the pass for the document on, so what its handlers edit there is walked as edited. -/
def applyComponents (s : Session) (doc : Value) : Session × Except Fault Entries :=
  if s.context.isNone then (s, .ok [])
  else match { s with schemas := (schemasOf? doc).map SchemaTable.ofEntries }.applyDoc doc with
    | (s, some fault) => ({ s with schemas := none }, .error fault)
    | (s, none) =>
      match s.schemas with
      | none => (s.notify .noSchemas, .ok [])
      | some t =>
        match walk t.size t.size 0 [] s with
        | (s, .error fault) => ({ s with schemas := none }, .error fault)
        | (s, .ok names) =>
          ({ s with schemas := none }.notify (.applied names.length (renamed names)), .ok names)

end Session

end SchemaNaming
