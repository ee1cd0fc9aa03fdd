import SchemaNaming.Context

/-!
# Handlers

A handler reacts to calls: once per document, and once per schema of the document. What a handler
does in a call is a list of effects on the run it is part of — writing names into the context,
registering further handlers, editing the schemas being walked, failing — carried out in order
until one fails. Whether it can be called at all is another matter: a registry takes in whatever has
a name, and what has no method for a call fails when the method is looked up. Neither the name nor
the methods of a handler change during a call.

* `Call` — what a handler is called with;
* `Effect` — one thing that a handler does;
* `Handler` — a name, methods, and a reaction, which may depend on the call, on the context at its
  start and on how many calls came before;
* `Candidate` — what may be offered to a registry, handlers and other values alike.
-/

namespace SchemaNaming

/-- Whether a call concerns the whole document or one schema. -/
inductive Scope where
  | doc
  | schema
  deriving DecidableEq, Repr

namespace Scope

/-- The name of the scope in log lines and counters. -/
def label : Scope → String
  | doc => "doc"
  | schema => "schema"

/-- The name of the method for calls of the scope. -/
def method : Scope → String
  | doc => "apply_doc"
  | schema => "apply_schema"

end Scope

inductive Call where
  | doc (document : Value)
  | schema (name body : Value)

namespace Call

def scope : Call → Scope
  | doc _ => .doc
  | schema _ _ => .schema

def schemaName? : Call → Option Value
  | doc _ => none
  | schema name _ => some name

end Call

mutual

/-- A schema extension handler. -/
structure Handler where
  /-- The name under which the handler is enabled, counted and logged. -/
  name : Value
  /-- The name of the handler's type, shown where a registry refuses it. -/
  typeName : String
  /-- The handler is the one that the library ships, which all registries share. -/
  shipped : Bool
  /-- The scopes in which the handler's calls are reported to whoever runs the session. -/
  reported : List Scope
  /-- The fault of looking up the method for calls of a scope, where the lookup fails. -/
  missing : Scope → Option Fault
  /-- What the handler does in a call, given the number of calls it has had before and the context
  at the start of this one. -/
  react : Nat → Call → Option Context → List Effect
  /-- The number under which a session knows the handler, given to it with its registration. -/
  serial : Nat

/-- One thing that a handler does. -/
inductive Effect where
  | setName (name resolved : Value)
  | setSchemaName (name : Value)
  | replaceContext (context : Context)
  | register (candidate : Candidate)
  /-- Takes an entry out of the schemas being walked. -/
  | dropSchema (key : Value)
  /-- Sets an entry of the schemas being walked. -/
  | putSchema (key body : Value)
  | fail (fault : Fault)

/-- What is offered to a registry. -/
inductive Candidate where
  /-- Nothing at all. -/
  | absent
  /-- A value of the given type that has no name. -/
  | nameless (typeName : String)
  /-- A handler of its own. -/
  | handler (h : Handler)
  /-- The handler that the library ships, under its current name. -/
  | shipped

end

namespace Handler

instance : Inhabited Handler := ⟨⟨.null, "", false, [], fun _ => none, fun _ _ _ => [], 0⟩⟩

/-- The handler has the method for calls of the scope. -/
def Answers (h : Handler) (scope : Scope) : Prop := h.missing scope = none

/-- The handler has both methods. -/
def Complete (h : Handler) : Prop := ∀ scope, h.Answers scope

/-- A handler that does the same whenever it is called in the same way. -/
def steady (typeName : String) (name : Value) (react : Call → Option Context → List Effect) :
    Handler :=
  ⟨name, typeName, false, [], fun _ => none, fun _ => react, 0⟩

/-- Something of the given type that has a name, and methods for the calls of the scopes `on`
alone. In these it does nothing. -/
def partly (typeName : String) (name : Value) (on : List Scope) : Handler :=
  { steady typeName name fun _ _ => [] with
    missing := fun scope =>
      if on.contains scope then none else some (.lacks typeName scope.method) }

/-- A reaction only in the scopes `on`. -/
def inScopes (on : List Scope) (react : Call → Option Context → List Effect) :
    Call → Option Context → List Effect :=
  fun call context => if on.contains call.scope then react call context else []

def idle (name : Value) : Handler := steady "NoopHandler" name fun _ _ => []

/-- Does nothing, and has its calls in the scopes `on` reported. -/
def recorder (name : Value) (on : List Scope) : Handler :=
  { steady "RecordingHandler" name fun _ _ => [] with reported := on }

/-- Fails at once. -/
def failing (name : Value) (on : List Scope) (fault : Fault) : Handler :=
  steady "ExplodingHandler" name <| inScopes on fun _ _ => [.fail fault]

/-- Records the given names, then sets the current name if one is given. -/
def naming (name : Value) (on : List Scope) (names : List (Value × Value))
    (schemaName : Option Value) : Handler :=
  steady "NamingHandler" name <| inScopes on fun _ _ =>
    names.map (fun n => .setName n.1 n.2) ++ schemaName.toList.map .setSchemaName

def registering (name : Value) (on : List Scope) (candidate : Candidate) : Handler :=
  steady "RegisteringHandler" name <| inScopes on fun _ _ => [.register candidate]

/-- Called for a schema — for any, or only for the one named `at?` — drops entries of the schemas
being walked and then sets others. -/
def editing (name : Value) (on : List Scope) (at? : Option String) (drops : List String)
    (puts : List (String × Value)) : Handler :=
  steady "EditingHandler" name <| inScopes on fun call _ =>
    match call with
    | .doc _ => []
    | .schema schema _ =>
      if at?.all (fun s => schema.same (.text s)) then
        drops.map (fun k => .dropSchema (.text k)) ++ puts.map fun p => .putSchema (.text p.1) p.2
      else []

end Handler

end SchemaNaming
