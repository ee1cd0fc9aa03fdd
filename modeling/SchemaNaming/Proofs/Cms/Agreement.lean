import Mathlib.Data.List.Nodup
import SchemaNaming.Proofs.Cms.Components

/-!
# Two readings of a schema's name

An operation on a document and its schemas tells the names of the schemas twice: it answers with
the name that stood in the context after each schema, and it leaves a context in which names can be
looked up. `Session.names_agree_iff` says when the two agree if all enabled handlers are ones for
`x-cms` blocks.

A schema with an identifier of its own is recorded under its name, after everything else that is
recorded under it, so it is looked up as it was answered. A schema without one is not recorded. The
document's identifier, however, is recorded under a content type, and a content type may be the
name of such a schema: then looking the schema up finds the document (`Cms.Overshadowed`).
-/

namespace SchemaNaming

/-! ### Reading recorded names back -/

section ReadBack

variable (c : Context) (k : String)

/-- A name that is not recorded stands for itself. -/
theorem Context.resolvedName_text :
    c.resolvedName (.text k) = .ok ((c.names.find? (.text k)).getD (.text k)) := by
  unfold resolvedName
  cases h_names : c.names with
  | nil => rfl
  | cons e es => rfl

theorem Context.find?_record (name resolved : String) :
    (c.record name resolved).names.find? (.text k)
      = if name = k then some (.text resolved) else c.names.find? (.text k) := by
  change (c.names.set (.text name) (.text resolved)).find? (.text k) = _
  by_cases h_eq : name = k
  · rw [if_pos h_eq, h_eq, Entries.find?_set_self]
  · rw [if_neg h_eq, Entries.find?_set_of_ne c.names (Ne.symm h_eq)]

/-- What is recorded under other names does not matter. -/
theorem Context.find?_recordAll_of_ne {rs : List (String × String)} (h_ne : ∀ r ∈ rs, r.1 ≠ k) :
    (c.recordAll rs).names.find? (.text k) = c.names.find? (.text k) := by
  induction rs generalizing c with
  | nil => rfl
  | cons r rs ih =>
    refine (ih (c.record r.1 r.2) fun x hx => h_ne x (List.mem_cons_of_mem _ hx)).trans ?_
    rw [find?_record, if_neg (h_ne r List.mem_cons_self)]

/-- What is recorded is read back, if nothing else is recorded under the name. -/
theorem Context.find?_recordAll_of_mem {rs : List (String × String)} {resolved : String}
    (h_mem : (k, resolved) ∈ rs) (h_unique : ∀ r ∈ rs, r.1 = k → r.2 = resolved) :
    (c.recordAll rs).names.find? (.text k) = some (.text resolved) := by
  induction rs generalizing c with
  | nil => cases h_mem
  | cons r rs ih =>
    have h_unique' : ∀ x ∈ rs, x.1 = k → x.2 = resolved :=
      fun x hx => h_unique x (List.mem_cons_of_mem _ hx)
    by_cases h_later : ∃ x ∈ rs, x.1 = k
    · -- the name is recorded again, with the same outcome
      obtain ⟨x, hx, h_key⟩ := h_later
      obtain rfl : x = (k, resolved) := Prod.ext h_key (h_unique' x hx h_key)
      exact ih (c.record r.1 r.2) hx h_unique'
    · -- this is the last record under the name, so it is the one looked for
      have h_ne : ∀ x ∈ rs, x.1 ≠ k := fun x hx h_key => h_later ⟨x, hx, h_key⟩
      obtain rfl : (k, resolved) = r :=
        (List.mem_cons.mp h_mem).resolve_right fun h => h_ne _ h rfl
      refine (find?_recordAll_of_ne (c.record k resolved) k h_ne).trans ?_
      rw [find?_record, if_pos rfl]

end ReadBack

namespace Cms

/-- The document's identifier stands under the name of a schema that has none of its own, and it is
another name. -/
def Overshadowed (doc : Value) (e : String × Value) : Prop :=
  identifier? e.1 e.2 = none
    ∧ ∃ resolved, docIdentifier? doc = some (e.1, resolved) ∧ resolved ≠ e.1

end Cms

namespace Session

open Cms

/-! ### The two readings of a name -/

/-- The records of the schemas under a schema's name are its own. -/
theorem mem_schemaRecords {ks : List (String × Value)} (hk : (ks.map Prod.fst).Nodup)
    {e : String × Value} (he : e ∈ mappingsOf ks) {r : String × String}
    (hr : r ∈ schemaRecords ks) (h_key : r.1 = e.1) : identifier? e.1 e.2 = some r.2 := by
  obtain ⟨e', he', hr⟩ := List.mem_flatMap.mp hr
  obtain ⟨resolved, h_resolved, rfl⟩ := List.mem_map.mp hr
  -- no two schemas have the same name
  obtain rfl : e' = e := List.inj_on_of_nodup_map hk (List.mem_filter.mp he').1
    (List.mem_filter.mp he).1 h_key
  exact Option.mem_toList.mp h_resolved

section ReadBack

variable {c : Context} (h_fresh : c.nameMap = none) {doc : Value} {ks : List (String × Value)}
  (hk : (ks.map Prod.fst).Nodup) {e : String × Value} (he : e ∈ mappingsOf ks)

include hk he

/-- A schema with an identifier is resolved to it, whatever the document's identifier is. -/
theorem resolvedName_of_identifier {resolved : String}
    (h_own : identifier? e.1 e.2 = some resolved) :
    (c.recordAll (records doc ks)).resolvedName (.text e.1) = .ok (.text resolved) := by
  have h_mem : (e.1, resolved) ∈ schemaRecords ks := by
    refine List.mem_flatMap.mpr ⟨e, he, List.mem_map.mpr ⟨resolved, ?_, rfl⟩⟩
    rw [h_own]
    exact List.mem_singleton.mpr rfl
  -- the document's record comes first, so the schema's own is the one that is found
  rw [Context.resolvedName_text, records, Context.recordAll_append,
    Context.find?_recordAll_of_mem _ _ h_mem fun r hr h_key => ?_]
  · rfl
  · have h_own' := mem_schemaRecords hk he hr h_key
    rw [h_own] at h_own'
    exact (Option.some.inj h_own').symm

include h_fresh

/-- One without identifier is resolved to the document's, if that stands under its name. -/
theorem resolvedName_of_no_identifier (h_none : identifier? e.1 e.2 = none) :
    (c.recordAll (records doc ks)).resolvedName (.text e.1)
      = .ok (.text (((docIdentifier? doc).filter fun r => r.1 = e.1).elim e.1 Prod.snd)) := by
  have h_ne : ∀ r ∈ schemaRecords ks, r.1 ≠ e.1 := by
    intro r hr h_key
    have h_own := mem_schemaRecords hk he hr h_key
    rw [h_none] at h_own
    cases h_own
  -- so the lookup finds what the document left, and before it there was nothing
  have h_empty : c.names = [] := by
    unfold Context.names
    rw [h_fresh]
    rfl
  rw [Context.resolvedName_text, records, Context.recordAll_append,
    Context.find?_recordAll_of_ne _ _ h_ne]
  cases h_doc : docIdentifier? doc with
  | none =>
    change Except.ok ((c.names.find? (.text e.1)).getD (.text e.1)) = _
    rw [h_empty]
    rfl
  | some r =>
    change Except.ok (((c.record r.1 r.2).names.find? (.text e.1)).getD (.text e.1)) = _
    rw [Context.find?_record, h_empty]
    by_cases h_key : r.1 = e.1
    · rw [if_pos h_key, Option.filter_some, if_pos (by exact decide_eq_true h_key)]
      rfl
    · rw [if_neg h_key, Option.filter_some, if_neg (by simpa using h_key)]
      rfl

/-- The name that a schema goes by is the one it is resolved to, unless it is overshadowed. -/
theorem resolvedName_eq_iff :
    (c.recordAll (records doc ks)).resolvedName (.text e.1) = .ok (.text (nameOf e.1 e.2))
      ↔ ¬ Overshadowed doc e := by
  unfold Overshadowed nameOf
  cases h_own : identifier? e.1 e.2 with
  | some resolved =>
    rw [resolvedName_of_identifier hk he h_own]
    exact iff_of_true rfl nofun
  | none =>
    rw [resolvedName_of_no_identifier h_fresh hk he h_own]
    cases h_doc : docIdentifier? doc with
    | none => exact iff_of_true rfl fun ⟨_, _, h_some, _⟩ => nomatch h_some
    | some r =>
      obtain ⟨name, resolved⟩ := r
      by_cases h_key : name = e.1
      · -- the document's identifier stands under this very name
        subst h_key
        have h_filter : (some (e.1, resolved)).filter (fun r => r.1 = e.1)
            = some (e.1, resolved) := by simp
        rw [h_filter]
        constructor
        · rintro h_eq ⟨-, r, h_some, h_ne⟩
          obtain rfl : resolved = r := congrArg Prod.snd (Option.some.inj h_some)
          exact h_ne (Value.text.inj (Except.ok.inj h_eq))
        · intro h_not
          by_contra h_ne
          refine h_not ⟨rfl, resolved, rfl, fun h_eq => h_ne ?_⟩
          rw [h_eq]
          rfl
      · have h_filter : (some (name, resolved)).filter (fun r => r.1 = e.1) = none := by
          simp [h_key]
        rw [h_filter]
        refine iff_of_true rfl fun ⟨_, _, h_some, _⟩ => h_key ?_
        exact congrArg Prod.fst (Option.some.inj h_some)

end ReadBack

/-- **When the two readings agree.** With handlers for `x-cms` blocks only and a context without
names, an operation on a document and its schemas that returns answers for each schema with the
name that the context resolves the schema's name to, except for those that are overshadowed by the
document. Those keep their names in the answer, and are resolved to the document's identifier. -/
theorem names_agree_iff {s : Session} {c : Context} {doc : Value} {ks : List (String × Value)}
    {names : Entries} (h_some : s.handlers ≠ []) (h_cms : ∀ h ∈ s.handlers, h.IsCms)
    (hn : ∀ h ∈ s.handlers, h.Nameable) (hc : s.context = some c) (h_fresh : c.nameMap = none)
    (h_schemas : (schemasOf? doc).getD [] = entriesOf ks) (hk : (ks.map Prod.fst).Nodup)
    (h_ok : (s.applyComponents doc).2 = .ok names) :
    ∃ c', (s.applyComponents doc).1.context = some c'
      ∧ ∀ n ∈ names, ∃ e ∈ mappingsOf ks, n.1 = .text e.1
          ∧ (c'.resolvedName n.1 = .ok n.2 ↔ ¬ Overshadowed doc e)
          ∧ ∀ resolved, identifier? e.1 e.2 = none → docIdentifier? doc = some (e.1, resolved) →
              n.2 = .text e.1 ∧ c'.resolvedName n.1 = .ok (.text resolved) := by
  have hctx : s.context.isSome := Option.isSome_iff_exists.mpr ⟨c, hc⟩
  have h_tame : ∀ h ∈ s.handlers, h.Tame := fun h hh => (h_cms h hh).tame (hn h hh)
  -- as the operation returns, its answer and its context are the ones known
  have h_all := completes_of_ok hctx h_tame (schemasDistinct_of_texts h_schemas hk) h_ok
  obtain ⟨h_result, h_context⟩ :=
    applyComponents_cms_of_completes h_some h_cms hn hc h_schemas hk h_all
  refine ⟨_, h_context, fun n hn' => ?_⟩
  rw [h_ok] at h_result
  rw [Except.ok.inj h_result] at hn'
  obtain ⟨e, he, rfl⟩ := List.mem_map.mp hn'
  refine ⟨e, he, rfl, resolvedName_eq_iff h_fresh hk he, fun resolved h_none h_doc => ?_⟩
  constructor
  · change Value.text (nameOf e.1 e.2) = _
    unfold nameOf
    rw [h_none]
    rfl
  · have h_resolved : (c.recordAll (records doc ks)).resolvedName (.text e.1) = _ :=
      resolvedName_of_no_identifier h_fresh hk he h_none
    rw [h_doc, Option.filter_some, if_pos (decide_eq_true rfl)] at h_resolved
    exact h_resolved

/-! ### A document that overshadows a schema -/

/-- The handler that the library ships, and nothing else. -/
def shippedOnly : Session := { registry := [.builtin] }

/-- A document whose content type is the name of a schema without block. -/
def plainDoc : Value :=
  .map [(.text "x-cms", .map [(.text "content_type", .text "Plain"), (.text "version", .text "1")]),
    (.text "components", .map [(.text "schemas", .map [(.text "Plain", .map [])])])]

/-- The operation answers that the schema goes by its own name, and the context resolves that name
to the identifier of the document. -/
theorem shippedOnly_applyComponents :
    (shippedOnly.applyComponents plainDoc).2 = .ok [(.text "Plain", .text "Plain")]
      ∧ (shippedOnly.applyComponents plainDoc).1.context.map
          (fun c => c.resolvedName (.text "Plain")) = some (.ok (.text "Plain@v1")) := by
  unfold applyComponents
  unfold walk
  unfold walk
  exact ⟨rfl, rfl⟩

theorem shippedOnly_isCms : ∀ h ∈ shippedOnly.handlers, h.IsCms ∧ h.Nameable := by
  intro h hh
  obtain rfl := List.mem_singleton.mp (List.mem_filter.mp hh).1
  exact ⟨Handler.isCms_builtin _, Handler.nameable_of_text rfl⟩

/-- **The two readings can differ.** -/
theorem names_disagree :
    ¬ ∀ (s : Session) (c c' : Context) (doc : Value) (ks : List (String × Value)) (names : Entries),
        s.handlers ≠ [] → (∀ h ∈ s.handlers, h.IsCms ∧ h.Nameable) → s.context = some c →
        c.nameMap = none → (schemasOf? doc).getD [] = entriesOf ks → (ks.map Prod.fst).Nodup →
        (s.applyComponents doc).2 = .ok names → (s.applyComponents doc).1.context = some c' →
        ∀ n ∈ names, c'.resolvedName n.1 = .ok n.2 := by
  intro h_agree
  obtain ⟨h_result, h_context⟩ := shippedOnly_applyComponents
  obtain ⟨c', hc', h_resolved⟩ := Option.map_eq_some_iff.mp h_context
  have h_same := h_agree shippedOnly {} c' plainDoc [("Plain", .map [])] _ (List.cons_ne_nil _ _)
    shippedOnly_isCms rfl rfl rfl (List.nodup_singleton _) h_result hc' _ List.mem_cons_self
  rw [h_resolved] at h_same
  simp at h_same

/-- In that document the schema is overshadowed, as the general statement has it. -/
theorem names_agree_iff_plainDoc :
    shippedOnly.handlers ≠ [] ∧ (∀ h ∈ shippedOnly.handlers, h.IsCms ∧ h.Nameable)
      ∧ ∃ c', (shippedOnly.applyComponents plainDoc).1.context = some c'
        ∧ c'.resolvedName (.text "Plain") = .ok (.text "Plain@v1") := by
  obtain ⟨h_result, -⟩ := shippedOnly_applyComponents
  have h_schemas : (schemasOf? plainDoc).getD [] = entriesOf [("Plain", .map [])] := rfl
  obtain ⟨c', hc', h_names⟩ := names_agree_iff (s := shippedOnly) (List.cons_ne_nil _ _)
    (fun h hh => (shippedOnly_isCms h hh).1) (fun h hh => (shippedOnly_isCms h hh).2) rfl rfl
    h_schemas (List.nodup_singleton _) h_result
  refine ⟨List.cons_ne_nil _ _, shippedOnly_isCms, c', hc', ?_⟩
  obtain ⟨e, he, h_key, -, h_over⟩ := h_names _ List.mem_cons_self
  obtain rfl := List.mem_singleton.mp he
  exact (h_over "Plain@v1" rfl rfl).2

end Session

end SchemaNaming
