import SchemaNaming.Proofs.Identifier.Forms
import SchemaNaming.Proofs.Identifier.Spellings

/-!
# What an identifier depends on

Two spellings of the version are spellings of the schema as well, so a value under one of them is
met by both scans. It is never read as a version: if its text is not blank the block has a schema,
and the version does not count; if it is blank the scan for the version passes over it. Hence an
identifier is decided by the content type, the schema and the one key `version`.

* `firstText_version_of_no_schema` — without one, only `version` itself is left to scan;
* `ofBlock_congr` — a block is read under the spellings of its fields and nowhere else;
* `identifier_readsOnly` — what follows for one block, for two blocks that agree, and for blocks
  that differ in the order of their entries and in entries under other keys.
-/

namespace SchemaNaming

namespace Metadata

/-- The spellings that the schema and the version have in common. -/
def commonKeys : List String := ["schema_version", "schemaVersion"]

/-- The same values stand under the keys. -/
def AgreeOn (keys : List String) (block block' : Entries) : Prop :=
  ∀ k ∈ keys, block'.get? k = block.get? k

/-- A text other than blanks stands under the key. -/
def HasText (block : Entries) (k : String) : Prop :=
  ∃ v t, block.get? k = some v ∧ v.fieldText = .ok t ∧ trimBlank t ≠ ""

/-! ### The version -/

/-- A block without a schema has no text under the common spellings. -/
theorem firstText_commonKeys {block : Entries} (h_schema : firstText block schemaKeys = .ok "") :
    firstText block commonKeys = .ok "" := by
  rw [firstText_eq_empty_iff] at h_schema ⊢
  exact fun k hk => h_schema k (List.mem_cons_of_mem "schema" hk)

/-- The version that is read is the one under `version`, or that key has none and the text is that
of the common spellings. -/
theorem firstText_version {block : Entries} {t : String}
    (h_text : firstText block versionKeys = .ok t) :
    ∃ s, firstText block ["version"] = .ok s
      ∧ ((s ≠ "" ∧ t = s) ∨ (s = "" ∧ firstText block commonKeys = .ok t)) :=
  firstText_append_ok h_text

theorem firstText_version_of_no_schema {block : Entries} {t : String}
    (h_schema : firstText block schemaKeys = .ok "")
    (h_text : firstText block versionKeys = .ok t) : firstText block ["version"] = .ok t := by
  obtain ⟨s, h_version, ⟨-, rfl⟩ | ⟨rfl, h_common⟩⟩ := firstText_version h_text
  · exact h_version
  · rw [firstText_commonKeys h_schema] at h_common
    rwa [← Except.ok.inj h_common]

/-- **The version under `version`** makes the same identifier as the version that is read. -/
theorem identifier_of_version_alone {block : Entries} {m : Metadata} (hm : ofBlock block = .ok m) :
    ∃ version, firstText block ["version"] = .ok version
      ∧ { m with version }.identifier = m.identifier := by
  obtain ⟨-, h_schema, h_version⟩ := ofBlock_ok hm
  by_cases h_empty : m.schema = ""
  · rw [h_empty] at h_schema
    exact ⟨m.version, firstText_version_of_no_schema h_schema h_version, rfl⟩
  · obtain ⟨s, h_first, -⟩ := firstText_version h_version
    exact ⟨s, h_first, identifier_of_schema h_empty s⟩

/-! ### Blocks that agree -/

theorem schema_ne_of_hasText {block : Entries} {m : Metadata} (hm : ofBlock block = .ok m)
    {k : String} (hk : k ∈ schemaKeys) (h_text : HasText block k) : m.schema ≠ "" := by
  intro h_empty
  obtain ⟨v, t, h_get, h_text, h_ne⟩ := h_text
  obtain ⟨-, h_schema, -⟩ := ofBlock_ok hm
  rw [h_empty, firstText_eq_empty_iff] at h_schema
  have h_key := h_schema k hk
  rw [firstText_singleton h_get, h_text] at h_key
  exact h_ne (Except.ok.inj h_key)

theorem identifier_eq_of_agree {block block' : Entries} {m m' : Metadata}
    (hm : ofBlock block = .ok m) (hm' : ofBlock block' = .ok m')
    (h_agree : AgreeOn (contentTypeKeys ++ schemaKeys) block block')
    (h_version : (∃ k ∈ schemaKeys, HasText block k)
      ∨ firstText block' ["version"] = firstText block ["version"]) :
    m'.identifier = m.identifier := by
  obtain ⟨h_type, h_schema, -⟩ := ofBlock_ok hm
  obtain ⟨h_type', h_schema', -⟩ := ofBlock_ok hm'
  -- so the two readings differ in the version at most
  rw [firstText_congr fun k hk => h_agree k (List.mem_append_left _ hk), h_type] at h_type'
  rw [firstText_congr fun k hk => h_agree k (List.mem_append_right _ hk), h_schema] at h_schema'
  have h_eq : ∀ version, { m' with version } = { m with version } := by
    intro version
    rw [← Except.ok.inj h_type', ← Except.ok.inj h_schema']
  rcases h_version with ⟨k, hk, h_text⟩ | h_same
  · have h_ne : m.schema ≠ "" := schema_ne_of_hasText hm hk h_text
    rw [← identifier_of_schema h_ne m'.version, ← h_eq]
  · obtain ⟨version, h_first, h_id⟩ := identifier_of_version_alone hm
    obtain ⟨version', h_first', h_id'⟩ := identifier_of_version_alone hm'
    rw [h_first, h_first'] at h_same
    rw [← h_id, ← h_id', Except.ok.inj h_same, h_eq]

/-! ### Entries that are read -/

/-- The key of the entry is a spelling of a field. -/
def isNamed (e : Value × Value) : Bool := fields.flatten.any fun k => e.1.same (.text k)

/-- The entries under spellings of the fields. -/
def named (block : Entries) : Entries := block.filter isNamed

/-- A block is read field by field. -/
theorem ofBlock_of_fields {block block' : Entries}
    (h_fields : ∀ keys ∈ fields, firstText block' keys = firstText block keys) :
    ofBlock block' = ofBlock block := by
  unfold ofBlock
  rw [h_fields contentTypeKeys (by decide), h_fields schemaKeys (by decide),
    h_fields versionKeys (by decide)]

theorem ofBlock_congr {block block' : Entries} (h_agree : AgreeOn fields.flatten block block') :
    ofBlock block' = ofBlock block :=
  ofBlock_of_fields fun _ h_keys =>
    firstText_congr fun k hk => h_agree k (List.mem_flatten_of_mem h_keys hk)

/-- Blocks with the same entries under spellings of the fields, in whatever order, read the same. -/
theorem ofBlock_eq_of_named_perm {block block' : Entries} (hd : block.Distinct)
    (hd' : block'.Distinct) (h_perm : (named block').Perm (named block)) :
    ofBlock block' = ofBlock block :=
  ofBlock_congr fun _ hk => get?_of_perm hd hd' h_perm hk

/-! ### The identifier of a block -/

/-- **What an identifier depends on.** It is the one that the version under the key `version` makes.
So blocks that agree on the content type and the schema have the same identifier if one of the
spellings of the schema has a text, and if not, as soon as their texts under `version` agree when
trimmed. Neither the order of the entries matters, nor any entry under another key. -/
theorem identifier_readsOnly {block : Entries} {m : Metadata} (hm : ofBlock block = .ok m) :
    (∃ version, firstText block ["version"] = .ok version
        ∧ { m with version }.identifier = m.identifier)
      ∧ (∀ block' m', ofBlock block' = .ok m' →
          AgreeOn (contentTypeKeys ++ schemaKeys) block block' →
          ((∃ k ∈ schemaKeys, HasText block k)
            ∨ firstText block' ["version"] = firstText block ["version"]) →
          m'.identifier = m.identifier)
      ∧ ∀ block', block.Distinct → block'.Distinct → (named block').Perm (named block) →
          ofBlock block' = .ok m :=
  ⟨identifier_of_version_alone hm,
    fun _ _ hm' h_agree h_version => identifier_eq_of_agree hm hm' h_agree h_version,
    fun _ hd hd' h_perm => (ofBlock_eq_of_named_perm hd hd' h_perm).trans hm⟩

/-- A block whose version is a number, with a blank under a common spelling. -/
def numbered : Entries :=
  [(.text "slug", .text "article"), (.text "version", .int 2), (.text "schema_version", .text " ")]

/-- The block with its version as a text. -/
def spelt : Entries := numbered.set (.text "version") (.text "2 ")

/-- The block the other way round, behind an entry that is not read. -/
def turned : Entries := (.text "title", .null) :: numbered.reverse

theorem identifier_readsOnly_numbered :
    (∀ m', ofBlock spelt = .ok m' → m'.identifier = "article@v2")
      ∧ (ofBlock turned).map identifier = .ok "article@v2" := by
  have hm : ofBlock numbered = .ok { contentType := "article", version := "2" } := rfl
  obtain ⟨-, h_agree, h_order⟩ := identifier_readsOnly hm
  constructor
  · intro m' hm'
    have h_keys : AgreeOn (contentTypeKeys ++ schemaKeys) numbered spelt := by
      unfold AgreeOn contentTypeKeys schemaKeys
      simp only [List.cons_append, List.nil_append, List.forall_mem_cons]
      exact ⟨rfl, rfl, rfl, rfl, rfl, rfl, rfl, List.forall_mem_nil _⟩
    exact h_agree spelt m' hm' h_keys (.inr rfl)
  · have h_perm : (named turned).Perm (named numbered) := (named numbered).reverse_perm
    have hd : numbered.Distinct := Entries.distinct_ofPairs numbered
    have hd' : turned.Distinct := Entries.distinct_ofPairs turned
    rw [h_order turned hd hd' h_perm]
    rfl

end Metadata

end SchemaNaming
