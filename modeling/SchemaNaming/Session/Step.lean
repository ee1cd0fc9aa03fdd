import SchemaNaming.Config.Load
import SchemaNaming.Session.Dispatch

/-!
# Steps of a session

A session is driven by steps. Each step answers with a value or with a fault, and the session goes
on from the state that the step left, whichever it was.

* `Step` — what can be asked of a session;
* `Answer` — what a step answers with;
* `Session.step` — one step;
* `Session.run` — a sequence of steps with all its answers.
-/

namespace SchemaNaming

/-- What can be asked of a session. -/
inductive Step where
  /-- Starts over with a registry that is empty, or holds the shipped handler. -/
  | newRegistry (shipped : Bool)
  | register (candidate : Candidate)
  | list
  /-- Empties a list of the handlers and asks for another. -/
  | listAfterClearing
  | size
  | fingerprint
  /-- Renames the handler at an index; a negative one counts from the end. -/
  | rename (index : Int) (name : Value)
  /-- Reads the configuration from a file's bytes. -/
  | readConfig (bytes : List UInt8)
  | setConfig (config : Option RunConfig)
  | handlers
  | setContext (context : Option Context)
  | setName (name resolved : Value)
  | resolvedName (name : Value)
  | applyDoc (doc : Value)
  | applySchema (name body : Value)
  | applyComponents (doc : Value)
  /-- Calls the shipped handler itself, past registry and counters. -/
  | callShipped (call : Call)

/-- What a step answers with. -/
inductive Answer where
  | done
  | number (n : Nat)
  | names (names : List Value)
  | text (s : String)
  | value (v : Value)
  | config (c : RunConfig)
  | entries (es : Entries)

namespace Session

/-- The answer of an operation that only succeeds or fails. -/
def finish : Session × Option Fault → Session × Except Fault Answer
  | (s, none) => (s, .ok .done)
  | (s, some fault) => (s, .error fault)

def step (s : Session) : Step → Session × Except Fault Answer
  | .newRegistry shipped =>
    let s := { s with registry := [] }
    let s := if shipped then s.register .shipped else s
    (s, .ok (.number s.registry.length))
  | .register candidate =>
    let s := s.register candidate
    (s, .ok (.number s.registry.length))
  | .list => (s, .ok (.names s.registry.names))
  | .listAfterClearing => (s, .ok (.names s.registry.names))
  | .size => (s, .ok (.number s.registry.length))
  | .fingerprint => (s, s.registry.fingerprint.map .text)
  | .rename index name =>
    match s.registry.place? index with
    | none => (s, .error .outOfRange)
    | some i =>
      let shipped := s.registry[i]?.any Handler.shipped
      let shippedName := if shipped then name else s.shippedName
      ({ s with registry := s.registry.rename i name, shippedName }, .ok .done)
  | .readConfig bytes =>
    match Config.read bytes with
    | .error fault => (s, .error (.reading fault))
    | .ok (config, notices) =>
      ({ s with config := some config, notices := s.notices ++ notices }, .ok (.config config))
  | .setConfig config =>
    let s := { s with config }
    (s, .ok (.config s.activeConfig))
  | .handlers => (s, .ok (.names (s.handlers.map Handler.name)))
  | .setContext context => ({ s with context }, .ok .done)
  | .setName name resolved => finish (s.perform (.setName name resolved))
  | .resolvedName name =>
    match s.context with
    | none => (s, .error (.lacks "NoneType" "resolved_name"))
    | some c => (s, (c.resolvedName name).map .value)
  | .applyDoc doc => finish (s.applyDoc doc)
  | .applySchema name body => finish (s.applySchema name body)
  | .applyComponents doc =>
    let (s, result) := s.applyComponents doc
    (s, result.map .entries)
  | .callShipped call => finish (s.performAll (Cms.react call s.context))

/-- Takes the steps one after another; each answer comes with the session it left. -/
def run (s : Session) : List Step → List (Session × Except Fault Answer)
  | [] => []
  | step :: steps =>
    let answered := s.step step
    answered :: run answered.1 steps

end Session

end SchemaNaming
