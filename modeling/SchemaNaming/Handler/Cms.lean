import SchemaNaming.Handler.Basic
import SchemaNaming.Identifier.Resolve

/-!
# The handler for content-management schemas

The library ships one handler. It looks for an `x-cms` block in the document and in each schema,
resolves the identifier that the block stands for, and records it:

* for the document under the block's content type, which must be set;
* for a schema under the schema's name, which also serves as the content type where the block
  sets none; the current name becomes the identifier.

Where there is no block, or no identifier, it does nothing. A fault of a value's text in the block
is the handler's fault, and then nothing was written.
-/

namespace SchemaNaming

namespace Cms

/-- The key of the block, and the name of the handler. -/
def blockKey : String := "x-cms"

/-- The extension block of a document or schema. -/
def block? (raw : Value) : Option Entries := do
  let es ← raw.entries?
  let b ← es.get? blockKey
  b.entries?

/-- The identifier recorded for a document, and the content type under which it is recorded. -/
def docName (raw : Value) : Except Fault (Option (String × String)) :=
  match block? raw with
  | none => .ok none
  | some block =>
    match Metadata.ofBlock block with
    | .error f => .error f
    | .ok m =>
      if m.contentType.isEmpty || m.identifier.isEmpty then .ok none
      else .ok (some (m.contentType, m.identifier))

/-- The identifier of a schema whose block has the metadata `m`. -/
def identifierFor (name : Value) (m : Metadata) : Except Fault Value :=
  if m.contentType.isEmpty then Value.identifier name (.text m.schema) (.text m.version)
  else .ok (.text m.identifier)

/-- The identifier recorded for the schema called `name`. -/
def schemaIdentifier (name raw : Value) : Except Fault (Option Value) :=
  match block? raw with
  | none => .ok none
  | some block => do
    let m ← Metadata.ofBlock block
    let r ← identifierFor name m
    return if r.truthy then some r else none

/-- What the handler does in a call. -/
def react (call : Call) (context : Option Context) : List Effect :=
  match context, call with
  | none, _ => []
  | some _, .doc raw =>
    match docName raw with
    | .error f => [.fail f]
    | .ok none => []
    | .ok (some (name, r)) => [.setName (.text name) (.text r)]
  | some _, .schema name raw =>
    match schemaIdentifier name raw with
    | .error f => [.fail f]
    | .ok none => []
    | .ok (some r) => [.setName name r, .setSchemaName r]

end Cms

namespace Handler

/-- A handler for `x-cms` blocks under the given name. -/
def cms (name : Value) : Handler := steady "CmsExtension" name Cms.react

/-- The handler that the library ships. -/
def builtin (name : Value := .text Cms.blockKey) : Handler :=
  { cms name with shipped := true }

end Handler

end SchemaNaming
