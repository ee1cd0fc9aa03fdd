import SchemaNaming.Proofs.Cms.Operation

/-!
# The order of schemas

Schemas of different names may be gone through in any order if all enabled handlers are ones for
`x-cms` blocks. `Session.applySchemas_perm` compares two orders of the same calls: the contexts that
they leave are alike up to the places of the names that are new (`Context.SameUpToOrder`). The
current name is the one thing that does depend on the order. It is the last identifier recorded.

The reason is that no call reads what another has written. What the calls record is a list
(`Cms.recordedBy`) to which each contributes by itself, under its own name; so two orders of the
calls are two orders of records under distinct keys.
-/

namespace SchemaNaming

/-- What two orders of the same calls make of the context `c`. -/
structure Context.SameUpToOrder (c d d' : Context) : Prop where
  doc : d.doc = c.doc ∧ d'.doc = c.doc
  caller : d.caller = c.caller ∧ d'.caller = c.caller
  /-- Either both have a map of names or none has. -/
  created : d.nameMap = none ↔ d'.nameMap = none
  /-- The same is found under any key. -/
  found : ∀ k, d.names.find? k = d'.names.find? k
  /-- The keys that were there keep their places, and only the others are ordered differently. -/
  order : c.names.Reordered d.names d'.names

/-- Records names, the last identifier becoming the current name. -/
def Change.naming (rs : List (String × String)) : Change := ⟨rs, rs.getLast?.map Prod.snd⟩

theorem Change.naming_append (rs later : List (String × String)) :
    naming (rs ++ later) = naming rs ++ naming later := by
  change _ = Change.append _ _
  unfold naming append
  rw [List.getLast?_append, Option.map_or]

theorem Change.naming_schemaName (rs : List (String × String)) (c : Context) :
    ((naming rs).on c).schemaName
      = (rs.getLast?.map fun r => Value.text r.2).getD c.schemaName := by
  unfold on naming
  rw [Option.map_map]
  rfl

/-- **Two orders of the same records** under distinct keys. -/
theorem Context.sameUpToOrder_naming (c : Context) {rs rs' : List (String × String)}
    (hk : (rs.map Prod.fst).Nodup) (h_perm : rs.Perm rs') :
    c.SameUpToOrder ((Change.naming rs).on c) ((Change.naming rs').on c) := by
  have h_names : ∀ qs, ((Change.naming qs).on c).names = c.names.setTexts qs :=
    c.recordAll_names
  refine ⟨⟨Change.on_doc _ c, Change.on_doc _ c⟩, ⟨Change.on_caller _ c, Change.on_caller _ c⟩, ?_,
    fun k => ?_, ?_⟩
  · -- the map is created with the first record, in either order
    have h_nil : rs = [] ↔ rs' = [] := by
      rw [← List.length_eq_zero_iff, ← List.length_eq_zero_iff, h_perm.length_eq]
    change (c.recordAll rs).nameMap = none ↔ (c.recordAll rs').nameMap = none
    rw [recordAll_nameMap, recordAll_nameMap]
    by_cases h : rs = []
    · rw [if_pos h, if_pos (h_nil.mp h)]
    · rw [if_neg h, if_neg (mt h_nil.mpr h)]
      exact iff_of_false nofun nofun
  · rw [h_names, h_names]
    exact c.names.find?_setTexts_perm hk h_perm k
  · rw [h_names, h_names]
    exact c.names.reordered_setTexts hk h_perm

namespace Cms

/-- The calls for schemas, as steps of a session. -/
def schemaSteps (calls : List (String × Value)) : List Step :=
  calls.map fun e => .applySchema (.text e.1) e.2

/-- What the handlers `hs` record in the calls, one identifier after another. -/
def recordedBy (hs : List Handler) (calls : List (String × Value)) : List (String × String) :=
  if hs = [] then [] else calls.flatMap recordsOf

section RecordedBy

variable (hs : List Handler)

theorem recordedBy_cons (e : String × Value) (calls : List (String × Value)) :
    recordedBy hs (e :: calls) = recordedBy hs [e] ++ recordedBy hs calls := by
  unfold recordedBy
  split
  · rfl
  · rw [List.flatMap_singleton, List.flatMap_cons]

theorem schemaChange_eq_naming (e : String × Value) :
    schemaChange hs e = .naming (recordedBy hs [e]) := by
  unfold schemaChange recordedBy Change.naming recordsOf
  split
  · rfl
  · rw [List.flatMap_singleton]
    cases identifier? e.1 e.2 <;> rfl

/-- A call records under the name of its schema, and at most once. -/
theorem keys_recordedBy (calls : List (String × Value)) :
    ((recordedBy hs calls).map Prod.fst).Sublist (calls.map Prod.fst) := by
  induction calls with
  | nil =>
    unfold recordedBy
    split <;> exact List.Sublist.refl []
  | cons e calls ih =>
    have h_first : ((recordedBy hs [e]).map Prod.fst).Sublist [e.1] := by
      unfold recordedBy recordsOf
      split
      · exact List.nil_sublist _
      · rw [List.flatMap_singleton]
        cases identifier? e.1 e.2 with
        | none => exact List.nil_sublist _
        | some r => exact List.Sublist.refl _
    rw [recordedBy_cons, List.map_append]
    exact h_first.append ih

theorem recordedBy_perm {calls calls' : List (String × Value)} (h : calls.Perm calls') :
    (recordedBy hs calls).Perm (recordedBy hs calls') := by
  unfold recordedBy
  split
  · exact .refl []
  · exact h.flatMap_right recordsOf

end RecordedBy

end Cms

namespace Session

open Cms

/-- All the steps return. -/
def AllReturn (s : Session) (steps : List Step) : Prop := ∀ a ∈ s.run steps, a.2 = .ok .done

section Calls

variable {s : Session} {c : Context} (h_cms : ∀ h ∈ s.handlers, h.IsCms) (hc : s.context = some c)

include h_cms hc

/-- **The calls for a list of schemas** record one identifier after another, whether or not faults
get out of some of them. -/
theorem applySchemas_outcome (calls : List (String × Value)) :
    (s.after (schemaSteps calls)).context
      = some ((Change.naming (recordedBy s.handlers calls)).on c) := by
  -- a call leaves the handlers, so that the next one meets them again
  induction calls generalizing s c with
  | nil =>
    unfold recordedBy
    rw [List.flatMap_nil, ite_self]
    exact hc
  | cons e calls ih =>
    obtain ⟨h_context, -⟩ := applySchema_outcome h_cms hc e
    have h_handlers := handlers_applySchema h_cms (.text e.1) e.2
    have ih := ih (by rwa [h_handlers]) h_context
    rw [h_handlers] at ih
    rw [recordedBy_cons, Change.naming_append, Change.on_append, ← schemaChange_eq_naming, ← ih]
    change (s.after (.applySchema (.text e.1) e.2 :: schemaSteps calls)).context = _
    rw [after_cons, step_applySchema]

theorem allReturn_schemas (hn : ∀ h ∈ s.handlers, h.Nameable) {calls : List (String × Value)}
    (h_reads : ∀ e ∈ calls, ReadsSafely e.2) : s.AllReturn (schemaSteps calls) := by
  induction calls generalizing s c with
  | nil => exact List.forall_mem_nil _
  | cons e calls ih =>
    obtain ⟨h_context, h_fault⟩ := applySchema_outcome h_cms hc e
    have h_handlers := handlers_applySchema h_cms (.text e.1) e.2
    have ih := ih (by rwa [h_handlers]) h_context (by rwa [h_handlers])
      fun e' he' => h_reads e' (List.mem_cons_of_mem _ he')
    rw [passFault?_eq_none hn (h_reads e List.mem_cons_self)] at h_fault
    have h_pass : s.applySchema (.text e.1) e.2 = ((s.applySchema (.text e.1) e.2).1, none) :=
      Prod.ext rfl h_fault
    have h_step : s.step (.applySchema (.text e.1) e.2)
        = ((s.applySchema (.text e.1) e.2).1, .ok .done) := congrArg finish h_pass
    intro a ha
    rcases List.mem_cons.mp ha with rfl | ha
    · exact congrArg Prod.snd h_step
    · rw [h_step] at ha
      exact ih a ha

/-- **The order of schemas.** With handlers for `x-cms` blocks only, two orders of calls for schemas
of different names leave contexts that differ in the places of new names and in the current name,
and in nothing else. The current name is the identifier recorded last in each order, or the one
before if none is recorded. Blocks that cannot be read record nothing; as long as none demands the
end of the run, and the names of the handlers have texts, all calls return. -/
theorem applySchemas_perm {calls calls' : List (String × Value)}
    (h_names : (calls.map Prod.fst).Nodup) (h_perm : calls.Perm calls') :
    ∃ d d', (s.after (schemaSteps calls)).context = some d
      ∧ (s.after (schemaSteps calls')).context = some d'
      ∧ c.SameUpToOrder d d'
      ∧ d.schemaName
        = ((recordedBy s.handlers calls).getLast?.map fun r => .text r.2).getD c.schemaName
      ∧ d'.schemaName
        = ((recordedBy s.handlers calls').getLast?.map fun r => .text r.2).getD c.schemaName
      ∧ ((∀ h ∈ s.handlers, h.Nameable) → (∀ e ∈ calls, ReadsSafely e.2) →
          s.AllReturn (schemaSteps calls) ∧ s.AllReturn (schemaSteps calls')) := by
  have hk : ((recordedBy s.handlers calls).map Prod.fst).Nodup :=
    h_names.sublist (keys_recordedBy s.handlers calls)
  refine ⟨_, _, applySchemas_outcome h_cms hc calls, applySchemas_outcome h_cms hc calls',
    c.sameUpToOrder_naming hk (recordedBy_perm s.handlers h_perm), ?_, ?_, fun hn h_reads => ?_⟩
  · exact Change.naming_schemaName _ c
  · exact Change.naming_schemaName _ c
  · refine ⟨allReturn_schemas h_cms hc hn h_reads, allReturn_schemas h_cms hc hn fun e he => ?_⟩
    exact h_reads e (h_perm.mem_iff.mpr he)

end Calls

/-- A schema whose name is known already, one whose block cannot be read, and a new one. -/
def threeCalls : List (String × Value) :=
  [("old", .map [(.text "x-cms", .map [(.text "version", .text "2")])]),
   ("Bad", .map [(.text "x-cms",
     .map [(.text "version", .foreign 0 (.error (.raised .runtime "no text")))])]),
   ("new", .map [(.text "x-cms", .map [(.text "version", .text "1")])])]

theorem threeCalls_readSafely : ∀ e ∈ threeCalls, ReadsSafely e.2 := by
  intro e he block h_block x hx f hf
  simp only [threeCalls, List.mem_cons, List.not_mem_nil, or_false] at he
  rcases he with rfl | rfl | rfl <;> obtain rfl := Option.some.inj h_block <;>
    obtain rfl := List.mem_singleton.mp hx
  · cases hf
  · obtain rfl := Except.error.inj hf
    rfl
  · cases hf

/-- Backwards the schema called `old` is the last to be recorded, and keeps its place. -/
theorem applySchemas_perm_backwards :
    (∀ h ∈ twoCms.handlers, h.IsCms)
      ∧ (threeCalls.map Prod.fst).Nodup ∧ threeCalls.Perm threeCalls.reverse
      ∧ ∃ c d d', twoCms.context = some c
        ∧ (twoCms.after (schemaSteps threeCalls)).context = some d
        ∧ (twoCms.after (schemaSteps threeCalls.reverse)).context = some d'
        ∧ c.SameUpToOrder d d'
        ∧ d.schemaName = .text "new@v1"
        ∧ d'.schemaName = .text "old@v2"
        ∧ twoCms.AllReturn (schemaSteps threeCalls)
        ∧ twoCms.AllReturn (schemaSteps threeCalls.reverse) := by
  have h_cms : ∀ h ∈ twoCms.handlers, h.IsCms := fun h hh => (twoCms_isCms h hh).1
  have h_names : (threeCalls.map Prod.fst).Nodup := by decide
  have h_perm : threeCalls.Perm threeCalls.reverse := (List.reverse_perm threeCalls).symm
  obtain ⟨d, d', h_d, h_d', h_same, h_last, h_last', h_return⟩ :=
    applySchemas_perm h_cms rfl h_names h_perm
  obtain ⟨h_all, h_all'⟩ := h_return (fun h hh => (twoCms_isCms h hh).2) threeCalls_readSafely
  exact ⟨h_cms, h_names, h_perm, _, d, d', rfl, h_d, h_d', h_same, h_last, h_last', h_all, h_all'⟩

end Session

end SchemaNaming
