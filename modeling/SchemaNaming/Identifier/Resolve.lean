import SchemaNaming.Identifier.Metadata
import SchemaNaming.Identifier.Version

/-!
# Versioned identifiers

The identifier of a schema names its content type and its version, `article@v2`. The metadata
decide in this order:

1. a schema that holds an `@` is an identifier already;
2. with a content type, a schema that starts with a v is the version;
3. with a content type, a version-like schema is the version, marked by a v;
4. any other schema is an identifier of its own;
5. without schema, content type and version make the identifier, the version marked by a v unless
   it starts with one;
6. otherwise there is none.

The decision needs the content type's text only to write the identifier, so it is made first:
`Naming.ofParts` takes just whether there is a content type, and `Naming.render` writes the
result. `Metadata.identifier` puts the two together for metadata. `Value.identifier` does so for
fields of any value, as they reach the naming of a schema whose own name is not a text.
-/

namespace SchemaNaming

/-- The form of an identifier. -/
inductive Naming where
  /-- There is no identifier. -/
  | unnamed
  /-- The schema reference itself. -/
  | verbatim (schema : String)
  /-- The content type at a version. -/
  | qualified (version : String)
  deriving DecidableEq, Repr

namespace Naming

/-- The form decided by the schema and the version, `typed` telling whether there is a content
type. -/
def ofParts (typed : Bool) (schema version : String) : Naming :=
  if schema ≠ "" then
    if schema.toList.contains '@' then verbatim schema
    else if typed && startsWithV schema then qualified schema
    else if typed && isVersionLike schema then qualified ("v" ++ schema)
    else verbatim schema
  else if typed && version ≠ "" then
    qualified (if startsWithV version then version else "v" ++ version)
  else unnamed

/-- The identifier of that form for a content type; empty where there is none. -/
def render (contentType : String) : Naming → String
  | unnamed => ""
  | verbatim schema => schema
  | qualified version => contentType ++ "@" ++ version

end Naming

/-- The versioned identifier that the metadata stand for; empty where they name none. -/
def Metadata.identifier (m : Metadata) : String :=
  (Naming.ofParts (m.contentType ≠ "") m.schema m.version).render m.contentType

namespace Value

/-- The value holds the text `@`, as a part of a text, a member of a list or a key. -/
def holdsAt : Value → Except Fault Bool
  | text s => .ok (s.toList.contains '@')
  | list xs => .ok (xs.any (same (.text "@")))
  | tuple xs => .ok (xs.any (same (.text "@")))
  | map es => .ok (Entries.get? es "@").isSome
  | bytes _ => .error .bytesExpected
  | v => .error (.notIterable v.typeName)

/-- The text of the value where its first letter is asked for. -/
def lettered : Value → Except Fault String
  | text s => .ok s
  | bytes _ => .error .startOfBytes
  | v => .error (.lacks v.typeName "lower")

/-- The form of the identifier for fields of any value. A schema that is no text can be
an identifier of its own, but not a version. -/
def naming (typed : Bool) (schema version : Value) : Except Fault (Naming ⊕ Value) := do
  if schema.truthy then
    if ← schema.holdsAt then return .inr schema
    if !typed then return .inr schema
    return .inl (Naming.ofParts typed (← schema.lettered) "")
  if !(typed && version.truthy) then return .inl .unnamed
  return .inl (Naming.ofParts typed "" (← version.lettered))

/-- The identifier for fields of any value. -/
def identifier (contentType schema version : Value) : Except Fault Value := do
  match ← naming contentType.truthy schema version with
  | .inr schema => return schema
  | .inl (.qualified v) => return .text ((← contentType.generalText) ++ "@" ++ v)
  | .inl other => return .text (other.render "")

/-- On texts the two definitions agree. -/
theorem identifier_text (m : Metadata) :
    identifier (.text m.contentType) (.text m.schema) (.text m.version)
      = .ok (.text m.identifier) := by
  obtain ⟨ct, s, v⟩ := m
  by_cases hs : s = ""
  · subst hs
    by_cases hc : ct = "" <;> by_cases hv : v = "" <;>
      simp_all [identifier, naming, Metadata.identifier, Naming.ofParts, truthy, lettered,
        generalText, Naming.render, bind, Except.bind, pure, Except.pure]
  · by_cases hc : ct = "" <;> by_cases ha : s.toList.contains '@' <;>
      by_cases hv : startsWithV s <;> by_cases hl : isVersionLike s <;>
      simp_all [identifier, naming, Metadata.identifier, Naming.ofParts, truthy, lettered,
        holdsAt, generalText, Naming.render, bind, Except.bind, pure, Except.pure]

end Value

end SchemaNaming
