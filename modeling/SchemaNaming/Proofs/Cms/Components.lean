import SchemaNaming.Proofs.Cms.Update
import SchemaNaming.Proofs.Dispatch.Schedule

/-!
# Names of a document's schemas

If all enabled handlers are ones for `x-cms` blocks, then what an operation on a document and its
schemas answers with, and what it records, are functions of the document alone.

* `Cms.nameOf` — the name that a schema goes by: the identifier of its own block and name, or its
  name if there is none;
* `Cms.records` — what is recorded: the document's identifier first, and then those of the schemas;
* `Session.afterPasses_schemas` — what the passes over the schemas do, by induction on them;
* `Session.applyComponents_names` — the operation as a whole.

The number and the names of the handlers do not matter, and neither does a block that cannot be
read. The schemas are given as `Cms.entriesOf` a list of names and values, as their keys are texts.
-/

namespace SchemaNaming

/-- The context with names recorded in it, one after another. -/
def Context.recordAll (c : Context) (rs : List (String × String)) : Context :=
  rs.foldl (fun c r => c.record r.1 r.2) c

theorem Context.recordAll_append (c : Context) (rs later : List (String × String)) :
    c.recordAll (rs ++ later) = (c.recordAll rs).recordAll later :=
  List.foldl_append

/-- Recording names does not touch the current name, nor depend on it. -/
theorem Context.recordAll_schemaName (c : Context) (v : Value) (rs : List (String × String)) :
    { c with schemaName := v }.recordAll rs = { c.recordAll rs with schemaName := v } := by
  induction rs generalizing c with
  | nil => rfl
  | cons r rs ih => exact ih (c.record r.1 r.2)

/-- Of a context, recording names changes the map of names only. -/
theorem Context.recordAll_frame (c : Context) (rs : List (String × String)) :
    c.recordAll rs = { c with nameMap := (c.recordAll rs).nameMap } := by
  induction rs generalizing c with
  | nil => rfl
  | cons r rs ih => exact ih (c.record r.1 r.2)

namespace Cms

/-- The entries of a mapping whose keys are texts. -/
def entriesOf (ks : List (String × Value)) : Entries := ks.map fun e => (.text e.1, e.2)

def mappingsOf (ks : List (String × Value)) : List (String × Value) := ks.filter fun e => e.2.isMap

/-- The name that a schema goes by. -/
def nameOf (name : String) (raw : Value) : String := (identifier? name raw).getD name

/-- The identifier of a schema as it is recorded. -/
def recordsOf (e : String × Value) : List (String × String) :=
  (identifier? e.1 e.2).toList.map fun resolved => (e.1, resolved)

/-- The identifiers of the schemas, in their order. -/
def schemaRecords (ks : List (String × Value)) : List (String × String) :=
  (mappingsOf ks).flatMap recordsOf

/-- All that is recorded for a document: its own identifier, and those of its schemas. -/
def records (doc : Value) (ks : List (String × Value)) : List (String × String) :=
  (docIdentifier? doc).toList ++ schemaRecords ks

/-- The current name after the schemas: that of the last mapping, or the one before. -/
def lastName (ks : List (String × Value)) (before : Value) : Value :=
  ((mappingsOf ks).getLast?.map fun e => Value.text (nameOf e.1 e.2)).getD before

section Lists

variable {e : String × Value} (ks : List (String × Value))

theorem entriesOf_cons : entriesOf (e :: ks) = (.text e.1, e.2) :: entriesOf ks := rfl

theorem mappingsOf_cons_of_map (h_map : e.2.isMap = true) :
    mappingsOf (e :: ks) = e :: mappingsOf ks :=
  List.filter_cons_of_pos (p := fun e : String × Value => e.2.isMap) h_map

theorem mappingsOf_cons_of_not_map (h_map : e.2.isMap = false) :
    mappingsOf (e :: ks) = mappingsOf ks :=
  List.filter_cons_of_neg (p := fun e : String × Value => e.2.isMap)
    (by rw [h_map]; exact Bool.false_ne_true)

theorem schemaRecords_cons_of_map (h_map : e.2.isMap = true) :
    schemaRecords (e :: ks) = recordsOf e ++ schemaRecords ks := by
  unfold schemaRecords
  rw [mappingsOf_cons_of_map ks h_map, List.flatMap_cons]

theorem lastName_cons_of_map (h_map : e.2.isMap = true) (before : Value) :
    lastName (e :: ks) before = lastName ks (.text (nameOf e.1 e.2)) := by
  unfold lastName
  rw [mappingsOf_cons_of_map ks h_map, List.getLast?_cons]
  cases (mappingsOf ks).getLast? <;> rfl

theorem distinct_entriesOf {ks : List (String × Value)} (hk : (ks.map Prod.fst).Nodup) :
    (entriesOf ks).Distinct := by
  unfold Entries.Distinct entriesOf
  rw [List.pairwise_map]
  exact (List.pairwise_map.mp hk).imp fun h_ne => Value.same_text_of_ne h_ne

end Lists

theorem updateDoc_eq (raw : Value) (c : Context) :
    updateDoc raw c = c.recordAll (docIdentifier? raw).toList := by
  unfold updateDoc
  cases docIdentifier? raw <;> rfl

/-- The update for a schema whose name is the current one records its identifier and makes the
name that it goes by the current one. -/
theorem updateSchema_eq (name : String) (raw : Value) (c : Context) :
    updateSchema name raw { c with schemaName := .text name }
      = { c.recordAll (recordsOf (name, raw)) with schemaName := .text (nameOf name raw) } := by
  unfold updateSchema recordsOf nameOf
  cases identifier? name raw <;> rfl

end Cms

namespace Session

open Cms

theorem schemasDistinct_of_texts {doc : Value} {ks : List (String × Value)}
    (h_schemas : (schemasOf? doc).getD [] = entriesOf ks) (hk : (ks.map Prod.fst).Nodup) :
    SchemasDistinct doc := by
  intro es h_es
  rw [h_es] at h_schemas
  obtain rfl : es = entriesOf ks := h_schemas
  exact distinct_entriesOf hk

/-! ### The passes -/

theorem passStart_schema {s : Session} {c : Context} (hc : s.context = some c) (name : String)
    (raw : Value) : (s.passStart (.schema (.text name) raw)).context
      = some { c with schemaName := .text name } := by
  unfold passStart enter
  rw [hc]
  rfl

section Passes

variable {s : Session} {c : Context} (h_some : s.handlers ≠ []) (h_cms : ∀ h ∈ s.handlers, h.IsCms)
  (hc : s.context = some c)

include h_some h_cms hc

theorem afterPass_doc (raw : Value) :
    (s.afterPass (.doc raw)).context = some (c.recordAll (docIdentifier? raw).toList)
      ∧ (s.afterPass (.doc raw)).handlers = s.handlers := by
  have h := afterCalls_of_updates (updates_doc raw) hc h_cms (.inl h_some)
  rw [updateDoc_eq] at h
  exact h

theorem afterPass_schema (name : String) (raw : Value) :
    (s.afterPass (.schema (.text name) raw)).context
        = some { c.recordAll (recordsOf (name, raw)) with schemaName := .text (nameOf name raw) }
      ∧ (s.afterPass (.schema (.text name) raw)).handlers = s.handlers := by
  have h := afterCalls_of_updates (updates_schema name raw) (passStart_schema hc name raw) h_cms
    (.inl h_some)
  rw [updateSchema_eq] at h
  exact h

/-- **The passes over the schemas.** They record one identifier after another; each schema goes by
its own name or identifier, whatever came before it. -/
theorem afterPasses_schemas (ks : List (String × Value)) :
    (s.afterPasses (schemaCalls (entriesOf ks))).context
        = some { c.recordAll (schemaRecords ks) with schemaName := lastName ks c.schemaName }
      ∧ s.namesAfter (entriesOf ks)
        = (mappingsOf ks).map fun e => (.text e.1, .text (nameOf e.1 e.2)) := by
  -- what a pass leaves meets the assumptions again, so they are generalized along
  induction ks generalizing s c with
  | nil => exact ⟨hc, rfl⟩
  | cons e ks ih =>
    rw [entriesOf_cons]
    by_cases h_map : e.2.isMap
    · -- the pass leaves the handlers as they are, and the name of the schema as the current one
      obtain ⟨h_context, h_handlers⟩ := afterPass_schema h_some h_cms hc e.1 e.2
      obtain ⟨ih_context, ih_names⟩ :=
        ih (by rwa [h_handlers]) (by rwa [h_handlers]) h_context
      have h_current : (s.afterPass (.schema (.text e.1) e.2)).currentName
          = .text (nameOf e.1 e.2) := by
        unfold currentName
        rw [h_context]
        rfl
      constructor
      · rw [schemaCalls_cons_of_map _ h_map, afterPasses_cons, ih_context,
          Context.recordAll_schemaName, schemaRecords_cons_of_map ks h_map,
          Context.recordAll_append, lastName_cons_of_map ks h_map]
      · rw [namesAfter_cons_of_map _ s h_map, mappingsOf_cons_of_map ks h_map, List.map_cons,
          h_current, ih_names]
    · have h_map' : e.2.isMap = false := Bool.eq_false_iff.mpr h_map
      rw [schemaCalls_cons_of_not_map _ h_map', namesAfter_cons_of_not_map _ s h_map']
      unfold schemaRecords lastName
      rw [mappingsOf_cons_of_not_map ks h_map']
      exact ih h_some h_cms hc

/-- The passes return if no block demands the end of the run. -/
theorem completes_schemas (hn : ∀ h ∈ s.handlers, h.Nameable) {ks : List (String × Value)}
    (h_reads : ∀ e ∈ ks, ReadsSafely e.2) : s.Completes (schemaCalls (entriesOf ks)) := by
  induction ks generalizing s c with
  | nil => trivial
  | cons e ks ih =>
    have h_reads' : ∀ e' ∈ ks, ReadsSafely e'.2 :=
      fun e' he' => h_reads e' (List.mem_cons_of_mem _ he')
    rw [entriesOf_cons]
    by_cases h_map : e.2.isMap
    · obtain ⟨h_context, h_handlers⟩ := afterPass_schema h_some h_cms hc e.1 e.2
      rw [schemaCalls_cons_of_map _ h_map]
      refine ⟨?_, ih (by rwa [h_handlers]) (by rwa [h_handlers]) h_context (by rwa [h_handlers])
        h_reads'⟩
      exact pass_none_of_updates (updates_schema e.1 e.2) (passStart_schema hc e.1 e.2) h_cms hn
        fun f hf => (h_reads e List.mem_cons_self).contained hf
    · rw [schemaCalls_cons_of_not_map _ (Bool.eq_false_iff.mpr h_map)]
      exact ih h_some h_cms hc hn h_reads'

end Passes

/-! ### The operation -/

section Operation

variable {s : Session} {c : Context} {doc : Value} {ks : List (String × Value)}
  (h_some : s.handlers ≠ []) (h_cms : ∀ h ∈ s.handlers, h.IsCms)
  (hn : ∀ h ∈ s.handlers, h.Nameable) (hc : s.context = some c)
  (h_schemas : (schemasOf? doc).getD [] = entriesOf ks) (hk : (ks.map Prod.fst).Nodup)

include h_some h_cms hn hc h_schemas hk

/-- An operation that goes through all its passes answers with the names of the schemas, and has
recorded the identifiers. -/
theorem applyComponents_cms_of_completes (h_all : s.Completes (callsFor doc)) :
    (s.applyComponents doc).2
        = .ok ((mappingsOf ks).map fun e => (.text e.1, .text (nameOf e.1 e.2)))
      ∧ (s.applyComponents doc).1.context
        = some { c.recordAll (records doc ks) with schemaName := lastName ks c.schemaName } := by
  have hctx : s.context.isSome := Option.isSome_iff_exists.mpr ⟨c, hc⟩
  have h_tame : ∀ h ∈ s.handlers, h.Tame := fun h hh => (h_cms h hh).tame (hn h hh)
  obtain ⟨h_result, h_view⟩ := applyComponents_of_completes hctx h_tame
    (schemasDistinct_of_texts h_schemas hk) h_all
  -- the pass for the document, and then those for the schemas from what it left
  obtain ⟨h_context, h_handlers⟩ := afterPass_doc h_some h_cms hc doc
  obtain ⟨h_later, h_names⟩ := afterPasses_schemas (s := s.afterPass (.doc doc))
    (by rwa [h_handlers]) (by rwa [h_handlers]) h_context ks
  constructor
  · rw [h_result, h_schemas, h_names]
  · -- the document's identifier comes first, and leaves the current name alone
    rw [h_view Session.context (fun _ _ => rfl) fun _ _ => rfl, callsFor, h_schemas,
      afterPasses_cons, h_later, records, Context.recordAll_append,
      Context.recordAll_frame c (docIdentifier? doc).toList]

/-- **The names of the schemas.** With handlers for `x-cms` blocks only, however many and whatever
they are called, an operation on a document and its schemas returns unless reading a block demands
the end of the run. It answers with one name for each mapping, in their order: the identifier of
its block and name, or its own name. The context has recorded the document's identifier under its
content type, and then each schema's under its name; the current name is that of the last. -/
theorem applyComponents_names (h_doc : ReadsSafely doc) (h_reads : ∀ e ∈ ks, ReadsSafely e.2) :
    (s.applyComponents doc).2
        = .ok ((mappingsOf ks).map fun e => (.text e.1, .text (nameOf e.1 e.2)))
      ∧ (s.applyComponents doc).1.context
        = some { c.recordAll (records doc ks) with schemaName := lastName ks c.schemaName } := by
  -- it remains to see that the passes return, first for the document and then for the schemas
  refine applyComponents_cms_of_completes h_some h_cms hn hc h_schemas hk ⟨?_, ?_⟩
  · exact pass_none_of_updates (updates_doc doc) hc h_cms hn fun f hf => h_doc.contained hf
  · obtain ⟨h_context, h_handlers⟩ := afterPass_doc h_some h_cms hc doc
    rw [h_schemas]
    exact completes_schemas (s := s.afterPass (.doc doc)) (by rwa [h_handlers])
      (by rwa [h_handlers]) h_context (by rwa [h_handlers]) h_reads

end Operation

/-! ### A document with all kinds of schemas -/

/-- Four entries: one without block, one with a version, one whose block cannot be read, and one
that is no mapping. -/
def mixedSchemas : List (String × Value) :=
  [("article", .map []),
   ("Post", .map [(.text "x-cms",
     .map [(.text "slug", .text "post"), (.text "schema", .text "2")])]),
   ("Bad", .map [(.text "x-cms",
     .map [(.text "version", .foreign 0 (.error (.raised .runtime "no text")))])]),
   ("note", .int 1)]

/-- A document of the content type `article` with these entries. -/
def mixedDoc : Value :=
  .map
    [(.text "x-cms", .map [(.text "content_type", .text "article"), (.text "version", .text "2")]),
     (.text "components", .map [(.text "schemas", .map (entriesOf mixedSchemas))])]

/-- Two handlers for `x-cms` blocks, and a context that knows a name. -/
def twoCms : Session where
  registry := [.builtin, .cms (.text "second")]
  context := some { schemaName := .text "before", nameMap := some [(.text "old", .text "old@v1")] }

theorem twoCms_isCms : ∀ h ∈ twoCms.handlers, h.IsCms ∧ h.Nameable := by
  intro h hh
  have h_reg : h ∈ twoCms.registry := (List.mem_filter.mp hh).1
  rcases List.mem_pair.mp h_reg with rfl | rfl
  · exact ⟨Handler.isCms_builtin _, Handler.nameable_of_text rfl⟩
  · exact ⟨Handler.isCms_cms _, Handler.nameable_of_text rfl⟩

/-- The one value without a text fails with a fault that is contained. -/
theorem mixed_readsSafely : ReadsSafely mixedDoc ∧ ∀ e ∈ mixedSchemas, ReadsSafely e.2 := by
  refine ⟨?_, ?_⟩
  · intro block h_block e he f hf
    obtain rfl := Option.some.inj h_block
    rcases List.mem_pair.mp he with rfl | rfl <;> cases hf
  · intro e he block h_block x hx f hf
    simp only [mixedSchemas, List.mem_cons, List.not_mem_nil, or_false] at he
    rcases he with rfl | rfl | rfl | rfl
    · cases h_block
    · obtain rfl := Option.some.inj h_block
      rcases List.mem_pair.mp hx with rfl | rfl <;> cases hf
    · obtain rfl := Option.some.inj h_block
      obtain rfl := List.mem_singleton.mp hx
      obtain rfl := Except.error.inj hf
      rfl
    · cases h_block

/-- The schema without block and the one whose block cannot be read keep their names; what the
context knew before comes first. -/
theorem twoCms_names :
    twoCms.handlers ≠ [] ∧ (∀ h ∈ twoCms.handlers, h.IsCms ∧ h.Nameable)
      ∧ (mixedSchemas.map Prod.fst).Nodup
      ∧ (twoCms.applyComponents mixedDoc).2
        = .ok [(.text "article", .text "article"), (.text "Post", .text "post@v2"),
            (.text "Bad", .text "Bad")]
      ∧ (twoCms.applyComponents mixedDoc).1.context
        = some { schemaName := .text "Bad"
                 nameMap := some [(.text "old", .text "old@v1"),
                   (.text "article", .text "article@v2"), (.text "Post", .text "post@v2")] } := by
  have hk : (mixedSchemas.map Prod.fst).Nodup := by decide
  obtain ⟨h_doc, h_reads⟩ := mixed_readsSafely
  have h_schemas : (schemasOf? mixedDoc).getD [] = entriesOf mixedSchemas := rfl
  obtain ⟨h_result, h_context⟩ := applyComponents_names (s := twoCms) (List.cons_ne_nil _ _)
    (fun h hh => (twoCms_isCms h hh).1) (fun h hh => (twoCms_isCms h hh).2) rfl h_schemas hk h_doc
    h_reads
  exact ⟨List.cons_ne_nil _ _, twoCms_isCms, hk, h_result, h_context⟩

end Session

end SchemaNaming
