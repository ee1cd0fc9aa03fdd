import SchemaNaming.Value.Text
import SchemaNaming.Text.Blank

/-!
# Metadata of an extension block

An `x-cms` block describes the content type that a schema renders. Its three fields — content
type, schema and version — may each be spelt in several ways; the first spelling whose text is not
blank counts, and its text is trimmed. The spellings of schema and version overlap.

* `firstText` — the scan over the spellings of a field;
* `Metadata.ofBlock` — the three fields of a block, read in the order of the structure.
-/

namespace SchemaNaming

/-- The fields of an extension block, each empty where the block does not set it. -/
structure Metadata where
  contentType : String := ""
  schema : String := ""
  version : String := ""
  deriving DecidableEq, Repr, Inhabited

/-- The trimmed text under the first of `keys` that has a text other than blanks; empty if none
has. A fault of a text before that ends the scan. -/
def firstText (block : Entries) : List String → Except Fault String
  | [] => .ok ""
  | k :: ks =>
    match block.get? k with
    | none => firstText block ks
    | some v =>
      match v.fieldText with
      | .error f => .error f
      | .ok t => if (trimBlank t).isEmpty then firstText block ks else .ok (trimBlank t)

namespace Metadata

/-- The spellings of the content type. -/
def contentTypeKeys : List String := ["content_type", "contentType", "contentTypeSlug", "slug"]

def schemaKeys : List String := ["schema", "schema_version", "schemaVersion"]

def versionKeys : List String := ["version", "schema_version", "schemaVersion"]

def ofBlock (block : Entries) : Except Fault Metadata := do
  let contentType ← firstText block contentTypeKeys
  let schema ← firstText block schemaKeys
  let version ← firstText block versionKeys
  return { contentType, schema, version }

end Metadata

end SchemaNaming
