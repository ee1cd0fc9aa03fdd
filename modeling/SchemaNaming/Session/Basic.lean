import SchemaNaming.Registry
import SchemaNaming.RunConfig
import SchemaNaming.SchemaTable
import SchemaNaming.Tally

/-!
# Sessions

A session is everything that handlers and their callers share and change: the registry, the
context, the counters, the notices, and a record of the calls made.

* `Invocation` — one call of one handler, and how it ended;
* `Session` — the shared state;
* `Session.perform` — carries out one effect of a handler;
* `Session.performAll` — carries out effects in order until one fails.
-/

namespace SchemaNaming

/-- How a call ended. -/
inductive Ending where
  | returned
  /-- It failed, and its caller goes on. -/
  | failed (fault : Fault)
  /-- It ended the whole operation. -/
  | aborted (fault : Fault)
  deriving DecidableEq, Repr

/-- One call of one handler. -/
structure Invocation where
  handler : Handler
  call : Call
  /-- The context at the start of the call. -/
  context : Option Context
  ending : Ending

/-- The state that handlers and their callers share. -/
structure Session where
  registry : Registry := []
  /-- The present name of the handler that the library ships. -/
  shippedName : Value := .text Cms.blockKey
  /-- The run configuration; without one every handler takes part. -/
  config : Option RunConfig := none
  context : Option Context := some {}
  /-- The schemas being walked, while they are. -/
  schemas : Option SchemaTable := none
  tally : Tally := []
  notices : List Notice := []
  /-- The calls that dispatching made, in their order. -/
  history : List Invocation := []
  /-- The serial number of the next handler to be registered. -/
  nextSerial : Nat := 0
  deriving Inhabited

namespace Session

def notify (s : Session) (n : Notice) : Session := { s with notices := s.notices ++ [n] }

/-- Offers a candidate to the registry. No serial number is given twice. -/
def register (s : Session) (c : Candidate) : Session :=
  let (registry, notice) := s.registry.offer s.nextSerial s.shippedName c
  { s with registry, nextSerial := s.nextSerial + 1 }.notify notice

/-- The fault of a key under which a mapping has no entry. It shows the key, if that has a text. -/
def missingKey (key : Value) : Fault := .missingKey (key.nestedText.toOption.getD "")

/-- Carries out one effect. Where there is no context, writing to it fails; where no schemas are
being walked, editing them does nothing. -/
def perform (s : Session) : Effect → Session × Option Fault
  | .setName name resolved =>
    match s.context with
    | none => (s, some (.lacks "NoneType" "set_name"))
    | some c =>
      let (c, fault) := c.setName name resolved
      ({ s with context := some c }, fault)
  | .setSchemaName name =>
    match s.context with
    | none => (s, some (.lacks "NoneType" "schema_name"))
    | some c => ({ s with context := some { c with schemaName := name } }, none)
  | .replaceContext context => ({ s with context := s.context.map fun _ => context }, none)
  | .register candidate => (s.register candidate, none)
  | .dropSchema key =>
    match s.schemas, key.unhashable? with
    | none, _ => (s, none)
    | some _, some type => (s, some (.unhashable type))
    | some t, none =>
      match t.drop? key with
      | none => (s, some (missingKey key))
      | some t => ({ s with schemas := some t }, none)
  | .putSchema key body =>
    match s.schemas, key.unhashable? with
    | none, _ => (s, none)
    | some _, some type => (s, some (.unhashable type))
    | some t, none => ({ s with schemas := some (t.set key body) }, none)
  | .fail fault => (s, some fault)

/-- Carries out effects in order, up to and including the first that fails. -/
def performAll (s : Session) : List Effect → Session × Option Fault
  | [] => (s, none)
  | e :: es =>
    match s.perform e with
    | (s, some fault) => (s, some fault)
    | (s, none) => performAll s es

end Session

end SchemaNaming
