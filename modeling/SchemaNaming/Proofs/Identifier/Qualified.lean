import Mathlib.Data.List.Basic
import SchemaNaming.Proofs.Identifier.Forms
import SchemaNaming.Text.Lower

/-!
# Content types at a version

A schema that names a version, and a version where there is no schema, are written in the same way:
behind the content type and an `@`, with the mark of a version in front (`marked`). This module says
which identifiers are of that kind, and what can be read off them.

* `startsWithV_iff_lower` — the mark is the letter v in either case, as no other character becomes
  one in lower case;
* `NamesVersion` — a text that is taken for a version where it stands as the schema;
* `cutAt?` — the parts of a text before and behind its first separator;
* `Metadata.Qualified` — metadata that name a content type at a version, and
  `Metadata.Qualified.identifier_eq`, the identifier that they make;
* `Metadata.identifier_uniquelyRead` — the content type and the marked version can be read off the
  identifier, so two of them are equal only if these are;
* `Metadata.identifier_eitherPath` — the same text given as the schema and as the version.
-/

namespace SchemaNaming

/-! ### The mark of a version -/

namespace Text

/-- The runs of characters beyond ASCII lead past the letter v, but for a single character that
becomes a letter before it. -/
theorem lowerRuns_image : ∀ r ∈ lowerRuns,
    'v'.toNat < r.image ∨ r.image < 'v'.toNat ∧ r.last = r.first := by
  decide +kernel

theorem image_ne_v {r : LowerRun} (hr : r ∈ lowerRuns) {n : Nat} (h_holds : r.holds n = true) :
    r.image + (n - r.first) ≠ 'v'.toNat := by
  unfold LowerRun.holds at h_holds
  rw [Bool.and_eq_true, Bool.and_eq_true, decide_eq_true_iff, decide_eq_true_iff] at h_holds
  obtain ⟨⟨h_first, h_last⟩, -⟩ := h_holds
  rcases lowerRuns_image r hr with h_past | ⟨h_before, h_single⟩ <;> omega

theorem ofNat_ne_v {n : Nat} (hn : n ≠ 'v'.toNat) : Char.ofNat n ≠ 'v' := by
  intro h_eq
  unfold Char.ofNat at h_eq
  by_cases h_valid : n.isValidChar
  · rw [dif_pos h_valid] at h_eq
    exact hn (congrArg Char.toNat h_eq)
  · rw [dif_neg h_valid] at h_eq
    cases h_eq

/-- In lower case only the two letters become a v. -/
theorem lowerChar_eq_v_iff (c : Char) : lowerChar c = 'v' ↔ c = 'v' ∨ c = 'V' := by
  unfold lowerChar
  split
  · next h_ascii =>
    have h_table : ∀ n < 128, (Char.ofNat n).toLower = 'v'
        ↔ Char.ofNat n = 'v' ∨ Char.ofNat n = 'V' := by decide +kernel
    have h_char := h_table c.toNat h_ascii
    rwa [Char.ofNat_toNat] at h_char
  · next h_ascii =>
    have h_ne : ¬ (c = 'v' ∨ c = 'V') := by
      rintro (rfl | rfl) <;> exact h_ascii (by decide)
    refine iff_of_false ?_ h_ne
    split
    · next r h_find =>
      have h_holds := List.find?_some h_find
      exact ofNat_ne_v (image_ne_v (List.mem_of_find?_eq_some h_find) h_holds)
    · exact fun h_eq => h_ne (.inl h_eq)

end Text

/-- **The mark of a version** may as well be looked for in the text in lower case. -/
theorem startsWithV_iff_lower (s : String) :
    startsWithV s = true ↔ (Text.lower s.toList).head? = some 'v' := by
  unfold startsWithV Text.lower
  cases s.toList with
  | nil => exact iff_of_false Bool.false_ne_true nofun
  | cons c cs =>
    rw [Text.lowerFrom, Bool.or_eq_true, decide_eq_true_iff, decide_eq_true_iff]
    split
    · next h_dotted =>
      -- the two characters that the table leaves out are no v, and do not become one
      refine iff_of_false ?_ (fun h_head => absurd (Option.some.inj h_head) (by decide))
      rintro (rfl | rfl) <;> cases h_dotted
    · split
      · next h_sigma =>
        refine iff_of_false ?_ (fun h_head => Text.ofNat_ne_v ?_ (Option.some.inj h_head))
        · rintro (rfl | rfl) <;> cases h_sigma
        · split <;> decide
      · rw [List.singleton_append, List.head?_cons, Option.some.injEq, Text.lowerChar_eq_v_iff]

/-- The text of a version as an identifier has it, with a v in front unless it starts with one. -/
def marked (t : String) : String := if startsWithV t then t else "v" ++ t

theorem marked_of_mark {t : String} (h : startsWithV t = true) : marked t = t := if_pos h

theorem marked_of_no_mark {t : String} (h : startsWithV t = false) : marked t = "v" ++ t :=
  if_neg (Bool.eq_false_iff.mp h)

theorem startsWithV_v_append (t : String) : startsWithV ("v" ++ t) = true := by
  unfold startsWithV
  rw [String.toList_append]
  rfl

theorem length_le_marked (t : String) : t.length ≤ (marked t).length := by
  unfold marked
  split
  · exact Nat.le_refl _
  · rw [String.length_append]
    exact Nat.le_add_left _ _

/-- **The mark hides one thing**, whether it was there before. -/
theorem marked_eq_iff {t t' : String} :
    marked t = marked t'
      ↔ t = t' ∨ (startsWithV t = false ∧ t' = "v" ++ t)
        ∨ (startsWithV t' = false ∧ t = "v" ++ t') := by
  constructor
  · intro h_eq
    cases h : startsWithV t with
    | true =>
      rw [marked_of_mark h] at h_eq
      cases h' : startsWithV t' with
      | true => exact .inl (h_eq.trans (marked_of_mark h'))
      | false => exact .inr (.inr ⟨rfl, h_eq.trans (marked_of_no_mark h')⟩)
    | false =>
      rw [marked_of_no_mark h] at h_eq
      cases h' : startsWithV t' with
      | true => exact .inr (.inl ⟨rfl, (marked_of_mark h').symm.trans h_eq.symm⟩)
      | false =>
        rw [marked_of_no_mark h', String.append_right_inj] at h_eq
        exact .inl h_eq
  · rintro (rfl | ⟨h, rfl⟩ | ⟨h, rfl⟩)
    · rfl
    · rw [marked_of_no_mark h, marked_of_mark (startsWithV_v_append t)]
    · rw [marked_of_no_mark h, marked_of_mark (startsWithV_v_append t')]

/-! ### Forms that hold a version -/

/-- Where the text stands as the schema it is taken for a version: it has the mark of one or is
version-like, and it is no identifier yet. -/
structure NamesVersion (s : String) : Prop where
  no_at : '@' ∉ s.toList
  version : startsWithV s = true ∨ isVersionLike s = true

instance (s : String) : Decidable (NamesVersion s) :=
  decidable_of_iff ('@' ∉ s.toList ∧ (startsWithV s = true ∨ isVersionLike s = true))
    ⟨fun h => ⟨h.1, h.2⟩, fun h => ⟨h.no_at, h.version⟩⟩

theorem NamesVersion.ne {s : String} (h : NamesVersion s) : s ≠ "" := by
  rintro rfl
  rcases h.version with h | h <;> cases h

namespace Naming

theorem ofParts_of_namesVersion {schema : String} (h : NamesVersion schema) (version : String) :
    ofParts true schema version = .qualified (marked schema) := by
  have h_at : schema.toList.contains '@' = false :=
    Bool.eq_false_iff.mpr (mt List.contains_iff_mem.mp h.no_at)
  unfold ofParts
  rw [if_pos h.ne, h_at, if_neg Bool.false_ne_true, Bool.true_and, Bool.true_and]
  cases h_v : startsWithV schema with
  | true => rw [if_pos rfl, marked_of_mark h_v]
  | false =>
    -- without a mark only its digits make it a version
    have h_like : isVersionLike schema = true :=
      h.version.resolve_left (Bool.eq_false_iff.mp h_v)
    rw [if_neg Bool.false_ne_true, if_pos h_like, marked_of_no_mark h_v]

theorem ofParts_of_not_namesVersion {schema : String} (h_ne : schema ≠ "")
    (h : ¬ NamesVersion schema) (version : String) :
    ofParts true schema version = .verbatim schema := by
  unfold ofParts
  rw [if_pos h_ne, Bool.true_and, Bool.true_and]
  split
  · rfl
  · next h_at =>
    have h_at : '@' ∉ schema.toList := mt List.contains_iff_mem.mpr h_at
    rw [if_neg fun h_v => h ⟨h_at, .inl h_v⟩, if_neg fun h_like => h ⟨h_at, .inr h_like⟩]

theorem ofParts_of_version {version : String} (h_ne : version ≠ "") :
    ofParts true "" version = .qualified (marked version) := by
  unfold ofParts
  rw [if_neg (not_not_intro rfl), Bool.true_and, if_pos (decide_eq_true h_ne)]
  rfl

end Naming

/-! ### Reading an identifier -/

/-- The parts before and behind the first `c`, if there is one. -/
def cutAt? (c : Char) : List Char → Option (List Char × List Char)
  | [] => none
  | d :: ds => if d = c then some ([], ds) else (cutAt? c ds).map fun p => (d :: p.1, p.2)

theorem cutAt?_eq_some_iff {c : Char} {cs front back : List Char} :
    cutAt? c cs = some (front, back) ↔ cs = front ++ c :: back ∧ c ∉ front := by
  induction cs generalizing front with
  | nil =>
    refine iff_of_false nofun fun ⟨h_eq, _⟩ => ?_
    exact List.append_ne_nil_of_right_ne_nil front (List.cons_ne_nil c back) h_eq.symm
  | cons d ds ih =>
    rw [cutAt?]
    by_cases hd : d = c
    · -- the first character is the one, so there is nothing before it
      subst hd
      rw [if_pos rfl, Option.some.injEq, Prod.mk.injEq]
      constructor
      · rintro ⟨rfl, rfl⟩
        exact ⟨rfl, List.not_mem_nil⟩
      · rintro ⟨h_eq, h_front⟩
        cases front with
        | nil => exact ⟨rfl, (List.cons.inj h_eq).2⟩
        | cons e front =>
          obtain ⟨rfl, -⟩ := List.cons.inj h_eq
          exact absurd List.mem_cons_self h_front
    · rw [if_neg hd, Option.map_eq_some_iff]
      constructor
      · rintro ⟨⟨front, back⟩, h_cut, h_parts⟩
        obtain ⟨rfl, rfl⟩ := Prod.mk.inj h_parts
        obtain ⟨rfl, h_front⟩ := ih.mp h_cut
        exact ⟨rfl, List.not_mem_cons_of_ne_of_not_mem (Ne.symm hd) h_front⟩
      · rintro ⟨h_eq, h_front⟩
        cases front with
        | nil => exact absurd (List.cons.inj h_eq).1 hd
        | cons e front =>
          obtain ⟨rfl, h_rest⟩ := List.cons.inj h_eq
          exact ⟨(front, back), ih.mpr ⟨h_rest, mt (List.mem_cons_of_mem d) h_front⟩, rfl⟩

/-- The content type and the version of an identifier, which are the parts at its first `@`. -/
def identifierParts? (r : String) : Option (String × String) :=
  (cutAt? '@' r.toList).map fun p => (String.ofList p.1, String.ofList p.2)

theorem identifierParts?_qualified {contentType : String} (h : '@' ∉ contentType.toList)
    (version : String) :
    identifierParts? (contentType ++ "@" ++ version) = some (contentType, version) := by
  have h_cut : cutAt? '@' (contentType ++ "@" ++ version).toList
      = some (contentType.toList, version.toList) := by
    refine cutAt?_eq_some_iff.mpr ⟨?_, h⟩
    rw [String.toList_append, String.toList_append, List.append_assoc]
    rfl
  unfold identifierParts?
  rw [h_cut, Option.map_some, String.ofList_toList, String.ofList_toList]

namespace Metadata

/-- The text that the version of an identifier is made of: the schema, or the version where there is
no schema. -/
def versionText (m : Metadata) : String := if m.schema = "" then m.version else m.schema

/-- The metadata name a content type, one without an `@`, at a version. -/
structure Qualified (m : Metadata) : Prop where
  typed : m.contentType ≠ ""
  no_at : '@' ∉ m.contentType.toList
  versioned : NamesVersion m.schema ∨ m.schema = "" ∧ m.version ≠ ""

instance (m : Metadata) : Decidable m.Qualified :=
  decidable_of_iff (m.contentType ≠ "" ∧ '@' ∉ m.contentType.toList
      ∧ (NamesVersion m.schema ∨ m.schema = "" ∧ m.version ≠ ""))
    ⟨fun h => ⟨h.1, h.2.1, h.2.2⟩, fun h => ⟨h.typed, h.no_at, h.versioned⟩⟩

/-- A schema that names a version stands behind the content type, with its mark. -/
theorem identifier_of_namesVersion {m : Metadata} (h_type : m.contentType ≠ "")
    (h : NamesVersion m.schema) : m.identifier = m.contentType ++ "@" ++ marked m.schema := by
  unfold identifier
  rw [decide_eq_true h_type, Naming.ofParts_of_namesVersion h]
  rfl

/-- So does a version without a schema. -/
theorem identifier_of_version {m : Metadata} (h_type : m.contentType ≠ "")
    (h_schema : m.schema = "") (h_version : m.version ≠ "") :
    m.identifier = m.contentType ++ "@" ++ marked m.version := by
  unfold identifier
  rw [decide_eq_true h_type, h_schema, Naming.ofParts_of_version h_version]
  rfl

/-- Any other schema is the identifier. -/
theorem identifier_of_not_namesVersion {m : Metadata} (h_type : m.contentType ≠ "")
    (h_ne : m.schema ≠ "") (h : ¬ NamesVersion m.schema) : m.identifier = m.schema := by
  unfold identifier
  rw [decide_eq_true h_type, Naming.ofParts_of_not_namesVersion h_ne h]
  rfl

theorem Qualified.identifier_eq {m : Metadata} (h : m.Qualified) :
    m.identifier = m.contentType ++ "@" ++ marked m.versionText := by
  unfold versionText
  rcases h.versioned with h_schema | ⟨h_schema, h_version⟩
  · rw [if_neg h_schema.ne]
    exact identifier_of_namesVersion h.typed h_schema
  · rw [if_pos h_schema]
    exact identifier_of_version h.typed h_schema h_version

/-- What can be read off such an identifier. -/
theorem Qualified.identifierParts?_eq {m : Metadata} (h : m.Qualified) :
    identifierParts? m.identifier = some (m.contentType, marked m.versionText) := by
  rw [h.identifier_eq]
  exact identifierParts?_qualified h.no_at _

/-- **Qualified identifiers do not collide.** The parts of such an identifier at its first `@` are
the content type and the version with its mark. So two of them are equal exactly if the content
types are, and the texts of the versions are equal or differ by a leading v that one of them
lacks. -/
theorem identifier_uniquelyRead {m m' : Metadata} (h : m.Qualified) (h' : m'.Qualified) :
    (m.identifier = m'.identifier
        ↔ m.contentType = m'.contentType
          ∧ (m.versionText = m'.versionText
            ∨ (startsWithV m.versionText = false ∧ m'.versionText = "v" ++ m.versionText)
            ∨ (startsWithV m'.versionText = false ∧ m.versionText = "v" ++ m'.versionText)))
      ∧ identifierParts? m.identifier = some (m.contentType, marked m.versionText) := by
  refine ⟨?_, h.identifierParts?_eq⟩
  rw [← marked_eq_iff]
  constructor
  · intro h_eq
    have h_read := congrArg identifierParts? h_eq
    rw [h.identifierParts?_eq, h'.identifierParts?_eq, Option.some.injEq, Prod.mk.injEq] at h_read
    exact h_read
  · rintro ⟨h_type, h_version⟩
    rw [h.identifier_eq, h'.identifier_eq, h_type, h_version]

/-- A version with an `@` in it, and versions that differ in the case of their letter. -/
theorem identifier_uniquelyRead_secondAt :
    ({ contentType := "a", version := "1@2" } : Metadata).identifier
        = ({ contentType := "a", version := "v1@2" } : Metadata).identifier
      ∧ identifierParts? ({ contentType := "a", version := "1@2" } : Metadata).identifier
        = some ("a", "v1@2")
      ∧ ({ contentType := "a", schema := "V1" } : Metadata).identifier
        ≠ ({ contentType := "a", schema := "1" } : Metadata).identifier := by
  have h_plain : ({ contentType := "a", version := "1@2" } : Metadata).Qualified := by decide
  have h_mark : ({ contentType := "a", version := "v1@2" } : Metadata).Qualified := by decide
  have h_upper : ({ contentType := "a", schema := "V1" } : Metadata).Qualified := by decide
  have h_number : ({ contentType := "a", schema := "1" } : Metadata).Qualified := by decide
  obtain ⟨h_same, h_parts⟩ := identifier_uniquelyRead h_plain h_mark
  refine ⟨h_same.mpr ⟨rfl, .inr (.inl ⟨by decide, by decide⟩)⟩, h_parts, fun h_eq => ?_⟩
  exact absurd ((identifier_uniquelyRead h_upper h_number).1.mp h_eq).2 (by decide)

/-! ### One text in either place -/

/-- **The schema and the version** make the same identifier of a text exactly if it names a version
as the schema. If it does not, the schema is the identifier itself, and the version still stands
behind the content type. -/
theorem identifier_eitherPath {contentType text : String} (h_type : contentType ≠ "")
    (h_text : text ≠ "") :
    (NamesVersion text →
        ({ contentType, schema := text } : Metadata).identifier
          = ({ contentType, version := text } : Metadata).identifier)
      ∧ (¬ NamesVersion text →
          ({ contentType, schema := text } : Metadata).identifier = text
            ∧ ({ contentType, version := text } : Metadata).identifier
              = contentType ++ "@" ++ marked text
            ∧ ({ contentType, schema := text } : Metadata).identifier
              ≠ ({ contentType, version := text } : Metadata).identifier) := by
  have h_version : ({ contentType, version := text } : Metadata).identifier
      = contentType ++ "@" ++ marked text := identifier_of_version h_type rfl h_text
  rw [h_version]
  refine ⟨fun h => identifier_of_namesVersion h_type h, fun h => ?_⟩
  have h_schema : ({ contentType, schema := text } : Metadata).identifier = text :=
    identifier_of_not_namesVersion h_type h_text h
  rw [h_schema]
  refine ⟨rfl, rfl, fun h_eq => ?_⟩
  -- behind the separator stands at least the text
  have h_length := congrArg String.length h_eq
  rw [String.length_append, String.length_append] at h_length
  have h_separator : "@".length = 1 := rfl
  have h_marked := length_le_marked text
  omega

/-- A version-like text with blanks around it, and a text with a mark that is an identifier. -/
theorem identifier_eitherPath_spaced :
    ({ contentType := "a", schema := " 2 " } : Metadata).identifier
        = ({ contentType := "a", version := " 2 " } : Metadata).identifier
      ∧ ({ contentType := "a", schema := "v1@b" } : Metadata).identifier = "v1@b"
      ∧ ({ contentType := "a", version := "v1@b" } : Metadata).identifier = "a@v1@b"
      ∧ ({ contentType := "a", schema := "v1@b" } : Metadata).identifier
        ≠ ({ contentType := "a", version := "v1@b" } : Metadata).identifier := by
  have h_spaced : NamesVersion " 2 " := by decide
  have h_at : ¬ NamesVersion "v1@b" := by decide
  exact ⟨(identifier_eitherPath (by decide) (by decide)).1 h_spaced,
    (identifier_eitherPath (by decide) (by decide)).2 h_at⟩

end Metadata

end SchemaNaming
