import Mathlib.Tactic.SplitIfs
import SchemaNaming.Identifier.Resolve
import SchemaNaming.Proofs.Text.Trimmed

/-!
# Forms of identifiers

An identifier is the schema as it stands, or the content type and a version with an `@` between
them (`Naming.ofParts_cases`). So an identifier without `@` is always the schema
(`Metadata.at_mem_or_eq_schema`), and one with `@` is never read as anything else when it is given
as a schema (`Metadata.identifier_of_at`).

Nothing is added at the ends of an identifier but the mark of the version. Identifiers of trimmed
metadata are therefore trimmed (`Metadata.Trimmed.identifier`), and no identifier is blank
(`Metadata.identifier_not_blank`).
-/

namespace SchemaNaming

namespace Naming

/-- The second text is the first as it stands in an identifier, with the mark of a version in front
or without it. -/
structure Writes (t w : String) : Prop where
  ne : t ≠ ""
  mark : w = t ∨ w = "v" ++ t

/-- **The three forms.** A schema stands for itself only if there is one, and what is written after
the content type is the schema or the version. -/
theorem ofParts_cases (typed : Bool) (schema version : String) :
    ofParts typed schema version = .unnamed
      ∨ (schema ≠ "" ∧ ofParts typed schema version = .verbatim schema)
      ∨ ∃ t w, typed = true ∧ (t = schema ∨ t = version) ∧ Writes t w
          ∧ ofParts typed schema version = .qualified w := by
  unfold ofParts
  split_ifs with h_schema h_at h_v h_like h_version h_v
  · exact .inr (.inl ⟨h_schema, rfl⟩)
  · -- the schema is the version, with its mark
    exact .inr (.inr
      ⟨schema, _, (Bool.and_eq_true_iff.mp h_v).1, .inl rfl, ⟨h_schema, .inl rfl⟩, rfl⟩)
  · exact .inr (.inr
      ⟨schema, _, (Bool.and_eq_true_iff.mp h_like).1, .inl rfl, ⟨h_schema, .inr rfl⟩, rfl⟩)
  · exact .inr (.inl ⟨h_schema, rfl⟩)
  · -- there is no schema, but a version
    obtain ⟨h_typed, h_ne⟩ := Bool.and_eq_true_iff.mp h_version
    exact .inr (.inr ⟨version, _, h_typed, .inr rfl, ⟨of_decide_eq_true h_ne, .inl rfl⟩, rfl⟩)
  · obtain ⟨h_typed, h_ne⟩ := Bool.and_eq_true_iff.mp h_version
    exact .inr (.inr ⟨version, _, h_typed, .inr rfl, ⟨of_decide_eq_true h_ne, .inr rfl⟩, rfl⟩)
  · exact .inl rfl

section Writes

variable {t w : String}

theorem Writes.written_ne (h : Writes t w) : w ≠ "" := by
  rcases h.mark with rfl | rfl
  · exact h.ne
  · exact fun h_empty => h.ne (String.append_eq_empty_iff.mp h_empty).2

theorem Writes.trimmed (h : Writes t w) (ht : trimBlank t = t) : trimBlank w = w := by
  rcases h.mark with rfl | rfl
  · exact ht
  · have h_marked := trimBlank_around (s := "v") (by decide) ht (by decide) h.ne ""
    rwa [String.append_empty] at h_marked

end Writes

/-- A qualified identifier holds an `@`. -/
theorem at_mem_render (contentType version : String) :
    '@' ∈ ((qualified version).render contentType).toList := by
  unfold render
  rw [String.toList_append, String.toList_append]
  exact List.mem_append_left _ (List.mem_append_right _ (List.mem_singleton.mpr rfl))

theorem render_qualified_not_blank (contentType version : String) :
    isBlankText ((qualified version).render contentType) = false :=
  List.all_eq_false.mpr ⟨'@', at_mem_render contentType version, by decide⟩

end Naming

namespace Metadata

/-! ### Identifiers given as schemas -/

/-- The version does not count where there is a schema. -/
theorem identifier_of_schema {m : Metadata} (h_schema : m.schema ≠ "") (version : String) :
    { m with version }.identifier = m.identifier := by
  unfold identifier Naming.ofParts
  rw [if_pos h_schema, if_pos h_schema]

/-- A schema with an `@` is the identifier, whatever else there is. -/
theorem identifier_of_at {m : Metadata} (h_at : '@' ∈ m.schema.toList) :
    m.identifier = m.schema := by
  have h_ne : m.schema ≠ "" := by
    intro h_empty
    rw [h_empty] at h_at
    cases h_at
  unfold identifier Naming.ofParts
  rw [if_pos h_ne, if_pos (List.contains_iff_mem.mpr h_at)]
  rfl

/-- An identifier has an `@`, or it is the schema. -/
theorem at_mem_or_eq_schema {m : Metadata} (h_some : m.identifier ≠ "") :
    '@' ∈ m.identifier.toList ∨ m.identifier = m.schema := by
  unfold identifier at h_some ⊢
  rcases Naming.ofParts_cases (m.contentType ≠ "") m.schema m.version with
    h | ⟨-, h⟩ | ⟨-, w, -, -, -, h⟩
  · rw [h] at h_some
    exact absurd rfl h_some
  · rw [h]
    exact .inr rfl
  · rw [h]
    exact .inl (Naming.at_mem_render _ _)

/-- **An identifier given as the schema** is the identifier again, whatever the version is. -/
theorem identifier_of_identifier {m : Metadata} (h_some : m.identifier ≠ "") (version : String) :
    { m with schema := m.identifier, version }.identifier = m.identifier := by
  rcases at_mem_or_eq_schema h_some with h_at | h_schema
  · exact identifier_of_at h_at
  · rw [h_schema] at h_some
    calc { m with schema := m.identifier, version }.identifier
        = { m with version }.identifier := by rw [h_schema]
      _ = m.identifier := identifier_of_schema h_some version

/-! ### Ends of identifiers -/

/-- No field has a blank at its ends. -/
structure Trimmed (m : Metadata) : Prop where
  contentType : trimBlank m.contentType = m.contentType
  schema : trimBlank m.schema = m.schema
  version : trimBlank m.version = m.version

theorem Trimmed.identifier {m : Metadata} (h : m.Trimmed) :
    trimBlank m.identifier = m.identifier := by
  unfold Metadata.identifier
  rcases Naming.ofParts_cases (m.contentType ≠ "") m.schema m.version with
    h_form | ⟨-, h_form⟩ | ⟨t, w, h_typed, h_text, h_writes, h_form⟩
  · rw [h_form]
    rfl
  · rw [h_form]
    exact h.schema
  · rw [h_form]
    have ht : trimBlank t = t := by
      rcases h_text with rfl | rfl
      · exact h.schema
      · exact h.version
    -- the ends are those of the content type and of the version
    exact trimBlank_around h.contentType (h_writes.trimmed ht) (of_decide_eq_true h_typed)
      h_writes.written_ne "@"

/-- An identifier of metadata read from a block is not blank, and also not when a name stands in
for the content type. -/
theorem identifier_not_blank {m : Metadata} (hs : m.schema = "" ∨ isBlankText m.schema = false)
    (h_some : m.identifier ≠ "") : isBlankText m.identifier = false := by
  unfold identifier at h_some ⊢
  rcases Naming.ofParts_cases (m.contentType ≠ "") m.schema m.version with
    h_form | ⟨-, h_form⟩ | ⟨-, w, -, -, -, h_form⟩
  · -- there is none
    rw [h_form] at h_some
    exact absurd rfl h_some
  · -- the identifier is the schema itself
    rw [h_form] at h_some ⊢
    exact hs.resolve_left h_some
  · rw [h_form]
    exact Naming.render_qualified_not_blank _ _

end Metadata

end SchemaNaming
