import SchemaNaming.Proofs.Decimal.Notation
import SchemaNaming.Proofs.Identifier.Qualified
import SchemaNaming.Proofs.Identifier.Reprocessing
import SchemaNaming.Proofs.Identifier.Version

/-!
# Numbers as schemas

A block may give its schema as a number. Its text is then trimmed, holds no `@` and starts with no
v, so the identifier depends on one thing only: whether the text is version-like (`Bare`,
`Metadata.identifier_of_bare`). For a whole number that is so from zero on. For a floating-point
number it is so where the text has neither a sign nor an exponent, which the number's value decides
(`Decimal.isVersionLike_render_iff`).

* `Value.NumberText`, `Value.IsVersionNumber` — the text of a number, and the numbers that name a
  version;
* `Metadata.identifier_of_number` — the identifier of a block whose schema is a number. Up to a
  million it does not matter whether a whole number is given as an integer or not.
-/

namespace SchemaNaming

/-! ### Texts of numbers -/

/-- A text that a scan gives back as it stands, and that is an identifier of its own unless it is
version-like. -/
structure Bare (t : String) : Prop where
  ne : t ≠ ""
  trimmed : trimBlank t = t
  no_at : '@' ∉ t.toList
  no_v : startsWithV t = false

instance (t : String) : Decidable (Bare t) :=
  decidable_of_iff (t ≠ "" ∧ trimBlank t = t ∧ '@' ∉ t.toList ∧ startsWithV t = false)
    ⟨fun h => ⟨h.1, h.2.1, h.2.2.1, h.2.2.2⟩, fun h => ⟨h.ne, h.trimmed, h.no_at, h.no_v⟩⟩

/-- The characters that the texts of numbers are made of. -/
def IsNumeral (c : Char) : Prop := c.isDigit = true ∨ c ∈ ['-', '+', '.', 'e']

theorem IsNumeral.not_blank {c : Char} (hc : IsNumeral c) : Text.isBlank c = false := by
  rcases hc with hc | hc
  · rw [Char.isDigit_iff_toNat] at hc
    obtain ⟨h_low, h_high⟩ := hc
    have h_low' : 48 ≤ c.toNat := h_low
    have h_high' : c.toNat ≤ 57 := h_high
    simp only [Text.isBlank, Bool.or_eq_false_iff, Bool.and_eq_false_iff, decide_eq_false_iff_not,
      beq_eq_false_iff_ne]
    omega
  · simp only [List.mem_cons, List.not_mem_nil, or_false] at hc
    rcases hc with rfl | rfl | rfl | rfl <;> rfl

theorem IsNumeral.no_mark {c : Char} (hc : IsNumeral c) : c ≠ '@' ∧ c ≠ 'v' ∧ c ≠ 'V' := by
  refine ⟨?_, ?_, ?_⟩ <;>
  · rintro rfl
    rcases hc with hc | hc
    · cases hc
    · exact absurd hc (by decide)

theorem bare_ofList {cs : List Char} (h_ne : cs ≠ []) (h : ∀ c ∈ cs, IsNumeral c) :
    Bare (String.ofList cs) where
  ne h_empty := h_ne (by rw [← String.toList_ofList (l := cs), h_empty]; rfl)
  trimmed := by
    unfold trimBlank
    rw [String.toList_ofList, Text.trim_eq_self fun c hc => (h c hc).not_blank]
  no_at h_mem := by
    rw [String.toList_ofList] at h_mem
    exact (h '@' h_mem).no_mark.1 rfl
  no_v := by
    unfold startsWithV
    rw [String.toList_ofList]
    cases cs with
    | nil => rfl
    | cons c cs =>
      obtain ⟨-, h_lower, h_upper⟩ := (h c List.mem_cons_self).no_mark
      simp [h_lower, h_upper]

theorem isVersionLike_ofList {cs : List Char} (h : ∀ c ∈ cs, IsNumeral c) :
    isVersionLike (String.ofList cs) = groupsFrom 2 false cs := by
  unfold isVersionLike
  rw [String.toList_ofList, Text.trim_eq_self fun c hc => (h c hc).not_blank]

/-! ### Whole numbers -/

namespace Integer

theorem digits_ne_nil (n : Int) : digits n ≠ [] := by
  unfold digits
  dsimp only
  split
  · exact List.cons_ne_nil _ _
  · exact Nat.toDigits_ne_nil

theorem isNumeral_digits (n : Int) : ∀ c ∈ digits n, IsNumeral c := by
  have h_digits : ∀ c ∈ Nat.toDigits 10 n.natAbs, IsNumeral c :=
    fun c hc => .inl (Decimal.areDigits_toDigits n.natAbs c hc)
  unfold digits
  dsimp only
  split
  · exact List.forall_mem_cons.mpr ⟨.inr (by decide), h_digits⟩
  · exact h_digits

/-- A whole number is version-like unless it has a sign. -/
theorem isVersionLike_digits_iff (n : Int) :
    isVersionLike (String.ofList (digits n)) = true ↔ 0 ≤ n := by
  rw [isVersionLike_ofList (isNumeral_digits n)]
  unfold digits
  dsimp only
  split
  · next h_neg =>
    refine iff_of_false (fun h_like => ?_) (Int.not_le.mpr h_neg)
    rcases mem_of_groupsFrom h_like '-' List.mem_cons_self with h | h <;> cases h
  · next h_neg =>
    exact iff_of_true
      (groupsFrom_group 2 Nat.toDigits_ne_nil (Decimal.areDigits_toDigits n.natAbs))
      (Int.not_lt.mp h_neg)

theorem digits_eq_toString (n : Int) : String.ofList (digits n) = toString n := by
  cases n with
  | ofNat n =>
    show _ = n.repr
    rw [Nat.repr_eq_ofList_toDigits]
    rfl
  | negSucc n =>
    show String.ofList (digits (Int.negSucc n)) = "-" ++ (n + 1).repr
    have h_digits : digits (Int.negSucc n) = '-' :: Nat.toDigits 10 (n + 1) :=
      if_pos (Int.negSucc_lt_zero n)
    have h_sign : "-" = String.ofList ['-'] := rfl
    rw [h_digits, Nat.repr_eq_ofList_toDigits, h_sign, ← String.ofList_append]
    rfl

end Integer

/-! ### Floating-point numbers -/

namespace Decimal

theorem IsTidy.digits_or_point {cs : List Char} (h : IsTidy cs) :
    ∀ c ∈ cs, c.isDigit = true ∨ c = '.' := by
  obtain ⟨whole, fraction, h_whole, h_fraction, rfl⟩ := h
  intro c hc
  rcases mem_pointed hc with hc | hc | hc
  · exact .inl (h_whole.digits c hc)
  · exact .inr hc
  · exact .inl (h_fraction.digits c hc)

theorem IsScientific.isNumeral {cs : List Char} (h : IsScientific cs) :
    ∀ c ∈ cs, IsNumeral c := by
  obtain ⟨d, fraction, sign, es, h_digit, -, h_fraction, h_sign, h_exp, rfl⟩ := h
  intro c hc
  rcases List.mem_append.mp hc with hc | hc
  · rcases mem_pointed hc with hc | rfl | hc
    · rw [List.mem_singleton.mp hc]
      exact .inl h_digit
    · exact .inr (by decide)
    · exact .inl (h_fraction.digits c hc)
  · rcases List.mem_cons.mp hc with rfl | hc
    · exact .inr (by decide)
    · rcases List.mem_cons.mp hc with rfl | hc
      · rcases h_sign with rfl | rfl
        · exact .inr (by decide)
        · exact .inr (by decide)
      · exact .inl (h_exp.digits c hc)

theorem isNumeral_magnitude (d : Decimal) : ∀ c ∈ d.magnitude .standalone, IsNumeral c := by
  by_cases h : d.Moderate
  · intro c hc
    rcases (isTidy_magnitude h).digits_or_point c hc with h_digit | rfl
    · exact .inl h_digit
    · exact .inr (by decide)
  · exact (isScientific_magnitude h).isNumeral

theorem isNumeral_render (d : Decimal) : ∀ c ∈ d.render .standalone, IsNumeral c := by
  rw [render_eq]
  split
  · exact List.forall_mem_cons.mpr ⟨.inr (by decide), d.isNumeral_magnitude⟩
  · exact d.isNumeral_magnitude

theorem render_ne_nil (style : Style) (d : Decimal) : d.render style ≠ [] := by
  obtain ⟨c, cs, h_text, -⟩ := exists_magnitude_eq_cons style d
  rw [render_eq, h_text]
  split
  · exact List.cons_ne_nil _ _
  · exact List.cons_ne_nil _ _

/-- Digits with a point among them are one or two groups. -/
theorem IsTidy.groupsFrom {cs : List Char} (h : IsTidy cs) : groupsFrom 2 false cs = true := by
  obtain ⟨whole, fraction, h_whole, h_fraction, rfl⟩ := h
  unfold pointed
  split
  · exact groupsFrom_group 2 h_whole.ne h_whole.digits
  · next h_some =>
    rw [groupsFrom_digits 2 h_whole.ne h_whole.digits]
    -- behind the point one more group may follow
    exact groupsFrom_group 1 h_some h_fraction.digits

/-- **A number that stands alone** is version-like if it has no sign and is moderate. -/
theorem isVersionLike_render_iff (d : Decimal) :
    isVersionLike (String.ofList (d.render .standalone)) = true
      ↔ d.negative = false ∧ d.Moderate := by
  rw [isVersionLike_ofList d.isNumeral_render, render_eq]
  cases d.negative with
  | true =>
    refine iff_of_false (fun h_like => ?_) fun h => nomatch h.1
    rcases mem_of_groupsFrom h_like '-' List.mem_cons_self with h | h <;> cases h
  | false =>
    rw [if_neg Bool.false_ne_true, and_iff_right rfl]
    constructor
    · intro h_like
      by_contra h
      -- an exponent is no part of a version
      have h_mem := (isScientific_magnitude h).e_mem
      rcases mem_of_groupsFrom h_like 'e' h_mem with h | h <;> cases h
    · intro h
      exact (isTidy_magnitude h).groupsFrom

end Decimal

/-! ### Numbers as values -/

namespace Value

/-- The value is a number, and the text is the one by which it is written. -/
inductive NumberText : Value → String → Prop where
  | int (n : Int) : NumberText (.int n) (toString n)
  | floating (x : Floating) : NumberText (.floating x) (x.render .standalone)

/-- The number names a version: a whole number from zero on, or a floating-point number that is zero
without a sign, or from `0.0001` on and below a million. -/
def IsVersionNumber : Value → Prop
  | int n => 0 ≤ n
  | floating (.finite d) =>
    d.coefficient = 0 ∧ d.negative = false ∨ 1 / 10000 ≤ d.value ∧ d.value < 1000000
  | _ => False

/-- The value is the number, as an integer or not. -/
inductive IsWhole (n : Nat) : Value → Prop where
  | int : IsWhole n (.int n)
  | floating : IsWhole n (.floating (.finite (.ofScaled false n 0)))

section NumberText

variable {v : Value} {t : String} (h : v.NumberText t)

include h

/-- A number can only have too many digits for its text. -/
theorem NumberText.eq_of_fieldText {s : String} (h_text : v.fieldText = .ok s) : s = t := by
  cases h with
  | int n =>
    rw [← Integer.digits_eq_toString]
    change intText n = .ok s at h_text
    unfold intText at h_text
    split at h_text
    · exact (Except.ok.inj h_text).symm
    · cases h_text
  | floating x => exact (Except.ok.inj h_text).symm

theorem NumberText.bare : Bare t := by
  cases h with
  | int n =>
    rw [← Integer.digits_eq_toString]
    exact bare_ofList (Integer.digits_ne_nil n) (Integer.isNumeral_digits n)
  | floating x =>
    match x with
    | .finite d => exact bare_ofList (d.render_ne_nil _) d.isNumeral_render
    | .infinite false => exact (by decide : Bare "+Inf")
    | .infinite true => exact (by decide : Bare "-Inf")
    | .undefined _ => exact (by decide : Bare "NaN")

/-- **Which numbers are versions** can be read off their texts. -/
theorem NumberText.versionLike_iff : isVersionLike t = true ↔ v.IsVersionNumber := by
  cases h with
  | int n =>
    rw [← Integer.digits_eq_toString]
    exact Integer.isVersionLike_digits_iff n
  | floating x =>
    match x with
    | .finite d => exact d.isVersionLike_render_iff.trans d.not_negative_and_moderate_iff
    | .infinite false => exact iff_of_false (by decide) id
    | .infinite true => exact iff_of_false (by decide) id
    | .undefined _ =>
      show isVersionLike "NaN" = true ↔ False
      exact iff_of_false (by decide) id

end NumberText

/-- Below a million a whole number has the same text in either way. -/
theorem IsWhole.fieldText {n : Nat} (hn : n < 1000000) {v : Value} (h : v.IsWhole n) :
    v.fieldText = .ok (String.ofList (Nat.toDigits 10 n)) := by
  cases h with
  | int =>
    have h_writable : Integer.writable n = true := by
      have h_limit : 10 ^ 6 ≤ 10 ^ Integer.digitLimit :=
        Nat.pow_le_pow_right (by decide) (by decide)
      rw [Integer.writable_iff]
      exact hn.trans_le h_limit
    show intText n = _
    unfold intText
    rw [if_pos h_writable]
    rfl
  | floating => exact congrArg (fun cs => Except.ok (String.ofList cs)) (Decimal.render_whole hn)

end Value

/-! ### The identifier of a block -/

namespace Metadata

/-- **A bare schema** is the version exactly if it is version-like. -/
theorem identifier_of_bare {m : Metadata} (h_type : m.contentType ≠ "") (h : Bare m.schema) :
    m.identifier = if isVersionLike m.schema then m.contentType ++ "@v" ++ m.schema
      else m.schema := by
  split
  · next h_like =>
    have h_mark : "@v" = "@" ++ "v" := rfl
    rw [identifier_of_namesVersion h_type ⟨h.no_at, .inr h_like⟩, marked_of_no_mark h.no_v, h_mark,
      ← String.append_assoc, ← String.append_assoc]
  · next h_like =>
    refine identifier_of_not_namesVersion h_type h.ne fun h_names => ?_
    rcases h_names.version with h_v | h_version
    · exact absurd h_v (Bool.eq_false_iff.mp h.no_v)
    · exact h_like h_version

/-- A block that can be read has a text under `schema`, if there is a value. -/
theorem exists_fieldText_schema {block : Entries} {m : Metadata} (hm : ofBlock block = .ok m)
    {v : Value} (h_get : block.get? "schema" = some v) : ∃ t, v.fieldText = .ok t := by
  have h_scan : firstText block (["schema"] ++ commonKeys) = .ok m.schema := (ofBlock_ok hm).2.1
  obtain ⟨s, h_first, -⟩ := firstText_append_ok h_scan
  rw [firstText_singleton h_get] at h_first
  cases h_text : v.fieldText with
  | ok t => exact ⟨t, rfl⟩
  | error f =>
    rw [h_text] at h_first
    cases h_first

/-- Below a million it does not matter in which way a whole number is given. -/
theorem ofBlock_of_isWhole {block block' : Entries} {n : Nat} (hn : n < 1000000) {v v' : Value}
    (hv : v.IsWhole n) (hv' : v'.IsWhole n) (h_get : block.get? "schema" = some v)
    (h_get' : block'.get? "schema" = some v')
    (h_others : ∀ k ∈ fields.flatten, k ≠ "schema" → block'.get? k = block.get? k) :
    ofBlock block' = ofBlock block := by
  refine ofBlock_of_fields fun keys h_keys => firstText_congr_text fun k hk => ?_
  by_cases h_schema : k = "schema"
  · subst h_schema
    rw [h_get, h_get', Option.map_some, Option.map_some, hv.fieldText hn, hv'.fieldText hn]
  · rw [h_others k (List.mem_flatten_of_mem h_keys hk) h_schema]

/-- **A number for a schema.** With a content type, the identifier is the content type at the number
as the version exactly if the number names one, and otherwise the number's text. Below a million a
block that gives a whole number as an integer, and one that gives it as a floating-point number,
read the same. -/
theorem identifier_of_number {block : Entries} {m : Metadata} (hm : ofBlock block = .ok m)
    (h_type : m.contentType ≠ "") {v : Value} {t : String} (h_number : v.NumberText t)
    (h_get : block.get? "schema" = some v) :
    (m.identifier = m.contentType ++ "@v" ++ t ↔ v.IsVersionNumber)
      ∧ (¬ v.IsVersionNumber → m.identifier = t)
      ∧ ∀ (n : Nat) (v' : Value) (block' : Entries), n < 1000000 → v.IsWhole n → v'.IsWhole n →
          block'.get? "schema" = some v' →
          (∀ k ∈ fields.flatten, k ≠ "schema" → block'.get? k = block.get? k) →
          ofBlock block' = .ok m := by
  have h_bare : Bare t := h_number.bare
  have h_schema : m.schema = t := by
    obtain ⟨s, h_text⟩ := exists_fieldText_schema hm h_get
    obtain rfl := h_number.eq_of_fieldText h_text
    -- the scan finds the number first, and it leaves a bare text as it is
    have h_first := firstText_schemaKeys h_get h_text h_bare.trimmed h_bare.ne
    rw [(ofBlock_ok hm).2.1] at h_first
    exact Except.ok.inj h_first
  have h_identifier := identifier_of_bare h_type (h_schema ▸ h_bare)
  rw [h_schema] at h_identifier
  rw [← h_number.versionLike_iff, h_identifier]
  refine ⟨?_, fun h_not => if_neg h_not, fun n v' block' hn hv hv' h_get' h_others => ?_⟩
  · constructor
    · intro h_eq
      by_contra h_not
      rw [if_neg h_not] at h_eq
      -- the text would be longer than itself
      have h_length := congrArg String.length h_eq
      rw [String.length_append, String.length_append] at h_length
      have h_mark : "@v".length = 2 := rfl
      omega
    · intro h_like
      exact if_pos h_like
  · rw [ofBlock_of_isWhole hn hv hv' h_get h_get' h_others]
    exact hm

/-- An article in its first version. -/
def article : Entries := [(.text "slug", .text "article"), (.text "version", .int 1)]

/-- Two as a floating-point number. -/
def two : Value := .floating (.finite (.ofScaled false 2 0))

def negativeZero : Value := .floating (.finite ⟨true, 0, 0, .inr ⟨rfl, rfl⟩⟩)

theorem identifier_of_number_article :
    (ofBlock (article.set (.text "schema") two)).map identifier = .ok "article@v2"
      ∧ (ofBlock (article.set (.text "schema") negativeZero)).map identifier = .ok "-0" := by
  constructor
  · have hm : ofBlock (article.set (.text "schema") (.int 2))
        = .ok { contentType := "article", schema := "2", version := "1" } := rfl
    obtain ⟨h_version, -, h_same⟩ := identifier_of_number hm (by decide) (.int 2) rfl
    have h_others : ∀ k ∈ fields.flatten, k ≠ "schema" →
        (article.set (.text "schema") two).get? k
          = (article.set (.text "schema") (.int 2)).get? k := by
      intro k _ hk
      calc (article.set (.text "schema") two).get? k
          = article.get? k := Entries.find?_set_of_ne article hk two
        _ = _ := (Entries.find?_set_of_ne article hk (.int 2)).symm
    rw [h_same 2 two _ (by decide) .int .floating rfl h_others]
    exact congrArg Except.ok (h_version.mpr (Int.natCast_nonneg 2))
  · have hm : ofBlock (article.set (.text "schema") negativeZero)
        = .ok { contentType := "article", schema := "-0", version := "1" } := rfl
    obtain ⟨-, h_bare, -⟩ := identifier_of_number hm (by decide) (.floating _) rfl
    have h_not : ¬ negativeZero.IsVersionNumber := by
      rw [negativeZero, Value.IsVersionNumber, ← Decimal.not_negative_and_moderate_iff]
      exact fun h => nomatch h.1
    rw [hm]
    exact congrArg Except.ok (h_bare h_not)

end Metadata

end SchemaNaming
