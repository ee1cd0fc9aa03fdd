import SchemaNaming.Proofs.Cms.Operation

/-!
# A document once more

An operation on a document and its schemas may be repeated without harm if all enabled handlers are
ones for `x-cms` blocks: `Session.applyComponents_again` says that the second operation answers like
the first and leaves the context as it finds it.

On its way the second operation does change the context. It starts from another current name, and
the document's identifier may go under the name of a schema; then it replaces for a while what the
schema recorded last. Yet the operation as a whole is one change, made twice.
-/

namespace SchemaNaming

namespace Session

open Cms

/-- **Repetition.** With handlers for `x-cms` blocks only, an operation on the same document and the
context that the first one left answers as the first did, with the same names in the same order or
with the same fault, and leaves the context exactly as it was. If the names of the handlers have
texts and no block demands the end of the run, both return. -/
theorem applyComponents_again {s : Session} {c : Context} {doc : Value}
    {ks : List (String × Value)} (h_cms : ∀ h ∈ s.handlers, h.IsCms) (hc : s.context = some c)
    (h_schemas : (schemasOf? doc).getD [] = entriesOf ks) (hk : (ks.map Prod.fst).Nodup) :
    ((s.applyComponents doc).1.applyComponents doc).2 = (s.applyComponents doc).2
      ∧ ((s.applyComponents doc).1.applyComponents doc).1.context
        = (s.applyComponents doc).1.context
      ∧ ((∀ h ∈ s.handlers, h.Nameable) → ReadsSafely doc → (∀ e ∈ ks, ReadsSafely e.2) →
          ∃ names, (s.applyComponents doc).2 = .ok names) := by
  obtain ⟨h_context, h_answer, h_handlers⟩ := applyComponents_outcome h_cms hc h_schemas hk
  -- the second operation meets the same handlers, and so makes the same change
  obtain ⟨h_context', h_answer', -⟩ :=
    applyComponents_outcome (by rwa [h_handlers]) h_context h_schemas hk
  rw [h_handlers] at h_context' h_answer'
  refine ⟨h_answer'.trans h_answer.symm, ?_, fun hn h_doc h_reads => ?_⟩
  · rw [h_context', h_context, Change.on_self]
  · rw [h_answer]
    exact operationOutcome_returns hn h_doc h_reads

/-- The first schema is called like the content type of the document, and records an identifier of
its own. The second has a block that cannot be read. -/
def reusedSchemas : List (String × Value) :=
  [("article", .map [(.text "x-cms", .map [(.text "version", .text "3")])]),
   ("Bad", .map [(.text "x-cms",
     .map [(.text "version", .foreign 0 (.error (.raised .runtime "no text")))])])]

def reusedDoc : Value :=
  .map
    [(.text "x-cms", .map [(.text "content_type", .text "article"), (.text "version", .text "2")]),
     (.text "components", .map [(.text "schemas", .map (entriesOf reusedSchemas))])]

theorem reused_readsSafely : ReadsSafely reusedDoc ∧ ∀ e ∈ reusedSchemas, ReadsSafely e.2 := by
  refine ⟨?_, ?_⟩
  · intro block h_block e he f hf
    obtain rfl := Option.some.inj h_block
    rcases List.mem_pair.mp he with rfl | rfl <;> cases hf
  · intro e he block h_block x hx f hf
    rcases List.mem_pair.mp he with rfl | rfl
    · obtain rfl := Option.some.inj h_block
      obtain rfl := List.mem_singleton.mp hx
      cases hf
    · obtain rfl := Option.some.inj h_block
      obtain rfl := List.mem_singleton.mp hx
      obtain rfl := Except.error.inj hf
      rfl

/-- The second operation records `article@v2` once more before it records `article@v3`. -/
theorem applyComponents_again_reused :
    (∀ h ∈ twoCms.handlers, h.IsCms)
      ∧ twoCms.context
        = some { schemaName := .text "before", nameMap := some [(.text "old", .text "old@v1")] }
      ∧ (schemasOf? reusedDoc).getD [] = entriesOf reusedSchemas
      ∧ (reusedSchemas.map Prod.fst).Nodup
      ∧ ((twoCms.applyComponents reusedDoc).1.applyComponents reusedDoc).2
        = (twoCms.applyComponents reusedDoc).2
      ∧ ((twoCms.applyComponents reusedDoc).1.applyComponents reusedDoc).1.context
        = (twoCms.applyComponents reusedDoc).1.context
      ∧ ∃ names, (twoCms.applyComponents reusedDoc).2 = .ok names := by
  have h_cms : ∀ h ∈ twoCms.handlers, h.IsCms := fun h hh => (twoCms_isCms h hh).1
  have h_schemas : (schemasOf? reusedDoc).getD [] = entriesOf reusedSchemas := rfl
  have hk : (reusedSchemas.map Prod.fst).Nodup := by decide
  obtain ⟨h_doc, h_reads⟩ := reused_readsSafely
  obtain ⟨h_answer, h_context, h_returns⟩ := applyComponents_again h_cms rfl h_schemas hk
  exact ⟨h_cms, rfl, h_schemas, hk, h_answer, h_context,
    h_returns (fun h hh => (twoCms_isCms h hh).2) h_doc h_reads⟩

end Session

end SchemaNaming
