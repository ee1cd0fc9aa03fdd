import SchemaNaming.Proofs.Identifier.Influence

/-!
# Identifiers that are read again

A generated document may carry the identifier that was made for it as the schema of its block. Read
again, such a block names the same identifier: the identifier is trimmed, so a scan gives it back as
it is, and as a schema it stands for itself.

The version may have been changed meanwhile. It does not count, but it is read, and if its text is
blank the scan goes on to the common spellings, to which it may not have come before. There the
block can turn out to be unreadable.

* `ofBlock_trimmed` — the metadata of a block are trimmed, and so is their identifier;
* `ofBlock_of_schema` — a block whose content type and schema are known needs only its version;
* `ofBlock_reread`, `ofBlock_changed_error_iff` — reading again, without and with another version;
* `identifier_stable` — the identifier stays.
-/

namespace SchemaNaming

namespace Metadata

theorem ofBlock_trimmed {block : Entries} {m : Metadata} (hm : ofBlock block = .ok m) :
    m.Trimmed := by
  obtain ⟨h_type, h_schema, h_version⟩ := ofBlock_ok hm
  exact ⟨firstText_trimmed h_type, firstText_trimmed h_schema, firstText_trimmed h_version⟩

/-! ### Blocks with a given schema -/

/-- The block with its schema set to a text. -/
def withSchema (block : Entries) (schema : String) : Entries :=
  block.set (.text "schema") (.text schema)

/-- The block with another version. -/
def withVersion (block : Entries) (version : Value) : Entries := block.set (.text "version") version

section Keys

variable (block : Entries) {k : String}

theorem get?_withSchema_self (schema : String) :
    (withSchema block schema).get? "schema" = some (.text schema) :=
  Entries.find?_set_self block "schema" (.text schema)

theorem get?_withSchema_of_ne (schema : String) (hk : k ≠ "schema") :
    (withSchema block schema).get? k = block.get? k :=
  Entries.find?_set_of_ne block hk (.text schema)

theorem get?_withVersion_self (version : Value) :
    (withVersion block version).get? "version" = some version :=
  Entries.find?_set_self block "version" version

theorem get?_withVersion_of_ne (version : Value) (hk : k ≠ "version") :
    (withVersion block version).get? k = block.get? k :=
  Entries.find?_set_of_ne block hk version

/-- With another schema and another version the block keeps its other entries. -/
theorem get?_changed (schema : String) (version : Value) (hk : k ∈ contentTypeKeys ++ commonKeys) :
    (withVersion (withSchema block schema) version).get? k = block.get? k := by
  have h_schema : k ≠ "schema" := by
    rintro rfl
    exact absurd hk (by decide)
  have h_version : k ≠ "version" := by
    rintro rfl
    exact absurd hk (by decide)
  rw [get?_withVersion_of_ne _ version h_version, get?_withSchema_of_ne block schema h_schema]

theorem get?_changed_schema (schema : String) (version : Value) :
    (withVersion (withSchema block schema) version).get? "schema" = some (.text schema) := by
  rw [get?_withVersion_of_ne _ version (by decide), get?_withSchema_self]

end Keys

/-- A value under `schema` whose text is trimmed gives the schema. -/
theorem firstText_schemaKeys {block : Entries} {v : Value} {r : String}
    (h_get : block.get? "schema" = some v) (h_text : v.fieldText = .ok r) (hr : trimBlank r = r)
    (h_ne : r ≠ "") : firstText block schemaKeys = .ok r := by
  have h_first : firstText block ["schema"] = .ok r := by
    rw [firstText_singleton h_get, h_text]
    exact congrArg Except.ok hr
  exact firstText_append_of_ne h_first h_ne commonKeys

theorem ofBlock_of_schema {block : Entries} {contentType schema : String}
    (h_type : firstText block contentTypeKeys = .ok contentType)
    (h_schema : firstText block schemaKeys = .ok schema) :
    ofBlock block
      = (firstText block versionKeys).map fun version => { contentType, schema, version } := by
  unfold ofBlock
  rw [h_type, h_schema]
  cases firstText block versionKeys <;> rfl

/-! ### Reading again -/

section Reread

variable {block : Entries} {m : Metadata} (hm : ofBlock block = .ok m) (h_some : m.identifier ≠ "")

include hm h_some

/-- Of a block with the content type of the first one, and its identifier for a schema, only the
version is left to read. -/
theorem ofBlock_of_identifier {block' : Entries}
    (h_keys : ∀ k ∈ contentTypeKeys, block'.get? k = block.get? k)
    (h_get : block'.get? "schema" = some (.text m.identifier)) :
    ofBlock block'
      = (firstText block' versionKeys).map fun version =>
          { m with schema := m.identifier, version } := by
  have h_type : firstText block' contentTypeKeys = .ok m.contentType :=
    (firstText_congr h_keys).trans (ofBlock_ok hm).1
  exact ofBlock_of_schema h_type
    (firstText_schemaKeys h_get rfl (ofBlock_trimmed hm).identifier h_some)

/-- Without another version the block is read as before, its schema aside. -/
theorem ofBlock_reread :
    ofBlock (withSchema block m.identifier) = .ok { m with schema := m.identifier } := by
  have h_keys : ∀ k ∈ contentTypeKeys ++ versionKeys,
      (withSchema block m.identifier).get? k = block.get? k := by
    intro k hk
    refine get?_withSchema_of_ne block m.identifier ?_
    rintro rfl
    exact absurd hk (by decide)
  rw [ofBlock_of_identifier hm h_some (fun k hk => h_keys k (List.mem_append_left _ hk))
      (get?_withSchema_self block m.identifier),
    firstText_congr fun k hk => h_keys k (List.mem_append_right _ hk), (ofBlock_ok hm).2.2]
  rfl

/-- Such a block has that identifier, whatever its version turns out to be. -/
theorem identifier_of_reread {block' : Entries} {m' : Metadata}
    (h_keys : ∀ k ∈ contentTypeKeys, block'.get? k = block.get? k)
    (h_get : block'.get? "schema" = some (.text m.identifier)) (hm' : ofBlock block' = .ok m') :
    m'.identifier = m.identifier := by
  rw [ofBlock_of_identifier hm h_some h_keys h_get] at hm'
  cases h_version : firstText block' versionKeys with
  | error f =>
    rw [h_version] at hm'
    cases hm'
  | ok version =>
    rw [h_version] at hm'
    obtain rfl := Except.ok.inj hm'
    exact identifier_of_identifier h_some version

variable {v : Value} {t : String} (h_text : v.fieldText = .ok t)

include h_text

/-- **Another version.** A text that is not blank is the version. If it is blank, the scan goes on
to the common spellings. -/
theorem ofBlock_changed :
    ofBlock (withVersion (withSchema block m.identifier) v)
      = (if trimBlank t = "" then firstText block commonKeys else .ok (trimBlank t)).map
          fun version => { m with schema := m.identifier, version } := by
  have h_first : firstText (withVersion (withSchema block m.identifier) v) ["version"]
      = .ok (trimBlank t) := by
    rw [firstText_singleton (get?_withVersion_self _ v), h_text]
    rfl
  have h_common : firstText (withVersion (withSchema block m.identifier) v) commonKeys
      = firstText block commonKeys :=
    firstText_congr fun k hk => get?_changed block _ v (List.mem_append_right _ hk)
  -- the scan for the version meets the new value first
  have h_scan := firstText_append (withVersion (withSchema block m.identifier) v) ["version"]
    commonKeys
  rw [h_first, h_common] at h_scan
  rw [ofBlock_of_identifier hm h_some
    (fun k hk => get?_changed block _ v (List.mem_append_left _ hk))
    (get?_changed_schema block _ v)]
  exact congrArg _ h_scan

theorem ofBlock_changed_error_iff (f : Fault) :
    ofBlock (withVersion (withSchema block m.identifier) v) = .error f
      ↔ trimBlank t = "" ∧ firstText block commonKeys = .error f := by
  rw [ofBlock_changed hm h_some h_text]
  by_cases h_blank : trimBlank t = ""
  · rw [if_pos h_blank, and_iff_right h_blank]
    cases firstText block commonKeys with
    | error g => exact (Except.error.injEq _ _).to_iff.trans (Except.error.injEq _ _).to_iff.symm
    | ok s => exact iff_of_false nofun nofun
  · rw [if_neg h_blank]
    exact iff_of_false nofun fun h => h_blank h.1

end Reread

/-! ### The identifier of a block -/

/-- **Identifiers are stable.** An identifier is trimmed, and its block with it for a schema has the
same identifier. With another version as well it has so too, if it can be read. It cannot only if
the version is blank and the scan, now going on, comes upon a common spelling without a text. An
identifier with an `@` is the identifier of every block that has it for a schema. -/
theorem identifier_stable {block : Entries} {m : Metadata} (hm : ofBlock block = .ok m)
    (h_some : m.identifier ≠ "") :
    trimBlank m.identifier = m.identifier
      ∧ (ofBlock (withSchema block m.identifier)).map identifier = .ok m.identifier
      ∧ (∀ v t, v.fieldText = .ok t →
          (∀ m', ofBlock (withVersion (withSchema block m.identifier) v) = .ok m' →
            m'.identifier = m.identifier)
          ∧ ∀ f, ofBlock (withVersion (withSchema block m.identifier) v) = .error f
            ↔ trimBlank t = "" ∧ firstText block commonKeys = .error f)
      ∧ ('@' ∈ m.identifier.toList → ∀ block' m',
          block'.get? "schema" = some (.text m.identifier) → ofBlock block' = .ok m' →
          m'.identifier = m.identifier) := by
  have h_trimmed : trimBlank m.identifier = m.identifier := (ofBlock_trimmed hm).identifier
  refine ⟨h_trimmed, ?_, fun v t h_text => ⟨fun m' hm' => ?_, ?_⟩, ?_⟩
  · rw [ofBlock_reread hm h_some]
    exact congrArg Except.ok (identifier_of_identifier h_some m.version)
  · exact identifier_of_reread hm h_some
      (fun k hk => get?_changed block _ v (List.mem_append_left _ hk))
      (get?_changed_schema block _ v) hm'
  · exact ofBlock_changed_error_iff hm h_some h_text
  · intro h_at block' m' h_get hm'
    -- the schema is the identifier, and nothing else counts
    have h_schema := firstText_schemaKeys h_get rfl h_trimmed h_some
    rw [(ofBlock_ok hm').2.1] at h_schema
    have h_eq : m'.schema = m.identifier := Except.ok.inj h_schema
    rw [← h_eq] at h_at ⊢
    exact identifier_of_at h_at

theorem identifier_stable_numbered :
    (ofBlock numbered).map identifier = .ok "article@v2"
      ∧ (ofBlock (withSchema numbered "article@v2")).map identifier = .ok "article@v2"
      ∧ (∀ m', ofBlock (withVersion (withSchema numbered "article@v2") (.bool true)) = .ok m' →
          m'.identifier = "article@v2")
      ∧ ∀ block' m', block'.get? "schema" = some (.text "article@v2") → ofBlock block' = .ok m' →
          m'.identifier = "article@v2" := by
  have hm : ofBlock numbered = .ok { contentType := "article", version := "2" } := rfl
  -- the identifier of these metadata evaluates to the text
  obtain ⟨-, h_again, h_changed, h_any⟩ := identifier_stable hm (by decide)
  exact ⟨rfl, h_again, (h_changed (.bool true) "true" rfl).1, h_any (by decide)⟩

/-- A block in which one of the common spellings has no text. No scan gets that far. -/
def unreadable : Entries :=
  [(.text "content_type", .text "a"), (.text "schema", .text "x"), (.text "version", .text "1"),
    (.text "schema_version", .foreign 0 (.error (.raised .value "no text")))]

/-- **A blank version** can leave a block without an identifier. -/
theorem identifier_lost :
    ¬ ∀ (block : Entries) (m : Metadata), ofBlock block = .ok m → m.identifier ≠ "" →
        ∀ v t, v.fieldText = .ok t →
          ∃ m', ofBlock (withVersion (withSchema block m.identifier) v) = .ok m'
            ∧ m'.identifier = m.identifier := by
  intro h_found
  have hm : ofBlock unreadable = .ok { contentType := "a", schema := "x", version := "1" } := rfl
  obtain ⟨m', hm', -⟩ := h_found unreadable _ hm (by decide) (.text "") "" rfl
  -- but the scan for the version now goes past the blank
  have h_lost : ofBlock (withVersion (withSchema unreadable "x") (.text ""))
      = .error (.raised .value "no text") := rfl
  change ofBlock (withVersion (withSchema unreadable "x") (.text "")) = .ok m' at hm'
  rw [h_lost] at hm'
  cases hm'

end Metadata

end SchemaNaming
