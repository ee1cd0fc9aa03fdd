import SchemaNaming.Proofs.Dispatch.Containment
import SchemaNaming.Proofs.Dispatch.Participants

/-!
# The calls of an operation

Handlers that edit no schemas cannot disturb the walk, and then what an operation on a document and
its schemas does can be said without the dispatcher: it is the sequence of passes `callsFor`, one
for the document and one for each of its mappings, in their order.

* `Session.walk_of_completes` — the walk over schemas is a sequence of passes, and answers with the
  name that stands in the context after each;
* `Session.completes_of_ok` — an operation that returns has gone through all its passes;
* `Session.applyComponents_of_completes` — the operation as a whole;
* `Session.applyComponents_followsSchedule` — which calls it makes, in which order and from which
  context.

Who is called in a pass is decided at its start: the handlers registered by then whose names are
selected (`Session.handlers_eq`). As a handler that registers others does so for good, and as
handlers keep their places, the handlers of a pass are the first ones of every later pass;
`Session.extends_afterPasses` says so for a whole sequence.
-/

namespace SchemaNaming

namespace Session

/-- The calls owed to the schemas of a document: one for each mapping. -/
def schemaCalls (es : Entries) : List Call :=
  es.mappings.map fun e => .schema e.1 e.2

/-- The calls owed to a document and its schemas. -/
def callsFor (doc : Value) : List Call := .doc doc :: schemaCalls ((schemasOf? doc).getD [])

theorem callsFor_names (doc : Value) : (callsFor doc).filterMap Call.schemaName?
    = ((schemasOf? doc).getD []).mappings.map Prod.fst := by
  unfold callsFor schemaCalls
  rw [List.filterMap_cons, List.filterMap_map]
  exact congrFun List.filterMap_eq_map' _

/-- **What is owed for**: the document, and each mapping among the schemas that it has. -/
theorem callsFor_eq {doc : Value} (hd : DistinctKeys doc) {es : Entries}
    (h_es : HasSchemas doc es) :
    callsFor doc = .doc doc :: es.filterMap fun
      | (k, .map fs) => some (.schema k (.map fs))
      | _ => none := by
  unfold callsFor schemaCalls Entries.mappings
  rw [(schemasOf?_eq_some_iff hd).mpr h_es, Option.getD_some, ← List.filterMap_eq_map,
    List.filterMap_filter]
  refine congrArg _ (List.filterMap_congr fun e _ => ?_)
  obtain ⟨k, v⟩ := e
  cases v <;> rfl

theorem callsFor_of_not_hasSchemas {doc : Value} (hd : DistinctKeys doc)
    (h_none : ∀ es, ¬ HasSchemas doc es) : callsFor doc = [.doc doc] := by
  have h_lookup : schemasOf? doc = none := Option.eq_none_iff_forall_ne_some.mpr fun es h_es =>
    h_none es ((schemasOf?_eq_some_iff hd).mp h_es)
  unfold callsFor
  rw [h_lookup]
  rfl

/-- The names of schemas as they are walked: for each mapping the current name after its pass. -/
def namesAfter (s : Session) : Entries → Entries
  | [] => []
  | e :: es =>
    if e.2.isMap then
      (e.1, (s.afterPass (.schema e.1 e.2)).currentName)
        :: (s.afterPass (.schema e.1 e.2)).namesAfter es
    else s.namesAfter es

section Lists

variable {e : Value × Value} (es : Entries) (s : Session)

theorem schemaCalls_cons_of_map (h_map : e.2.isMap = true) :
    schemaCalls (e :: es) = .schema e.1 e.2 :: schemaCalls es := by
  rw [schemaCalls, Entries.mappings_cons_of_map es h_map, List.map_cons, schemaCalls]

theorem schemaCalls_cons_of_not_map (h_map : e.2.isMap = false) :
    schemaCalls (e :: es) = schemaCalls es := by
  rw [schemaCalls, Entries.mappings_cons_of_not_map es h_map, schemaCalls]

theorem namesAfter_cons_of_map (h_map : e.2.isMap = true) :
    s.namesAfter (e :: es) = (e.1, (s.afterPass (.schema e.1 e.2)).currentName)
      :: (s.afterPass (.schema e.1 e.2)).namesAfter es := by
  rw [namesAfter, if_pos h_map]

theorem namesAfter_cons_of_not_map (h_map : e.2.isMap = false) :
    s.namesAfter (e :: es) = s.namesAfter es := by
  rw [namesAfter, if_neg (by rw [h_map]; exact Bool.false_ne_true)]

theorem namesAfter_keys : (s.namesAfter es).map Prod.fst = es.mappings.map Prod.fst := by
  induction es generalizing s with
  | nil => rfl
  | cons e es ih =>
    by_cases h_map : e.2.isMap = true
    · rw [namesAfter_cons_of_map es s h_map, Entries.mappings_cons_of_map es h_map, List.map_cons,
        List.map_cons, ih]
    · have h_map' : e.2.isMap = false := Bool.eq_false_iff.mpr h_map
      rw [namesAfter_cons_of_not_map es s h_map', Entries.mappings_cons_of_not_map es h_map', ih]

end Lists

/-! ### Sequences of passes -/

theorem afterPasses_append (s : Session) (calls later : List Call) :
    s.afterPasses (calls ++ later) = (s.afterPasses calls).afterPasses later :=
  List.foldl_append

theorem runLog_append (s : Session) (calls later : List Call) :
    s.runLog (calls ++ later) = s.runLog calls ++ (s.afterPasses calls).runLog later := by
  induction calls generalizing s with
  | nil => rfl
  | cons call calls ih =>
    rw [List.cons_append, runLog, ih, runLog, afterPasses_cons, List.append_assoc]

theorem afterPasses_context_isSome (s : Session) (calls : List Call) :
    (s.afterPasses calls).context.isSome = s.context.isSome := by
  induction calls generalizing s with
  | nil => rfl
  | cons call calls ih =>
    rw [afterPasses_cons, ih, afterPass_context_isSome]

/-- **Handlers keep their places.** Those registered or enabled at one time are the first of those
registered or enabled later. -/
theorem extends_afterPasses (s : Session) (calls : List Call) :
    s.Extends (s.afterPasses calls) := by
  induction calls generalizing s with
  | nil => exact .refl s
  | cons call calls ih => exact (extends_afterPass s call).trans (ih _)

section Tame

variable {s : Session} (hs : ∀ h ∈ s.handlers, h.Tame)

include hs

theorem afterPasses_withSchemas (calls : List Call) (t : Option SchemaTable) :
    (s.withSchemas t).afterPasses calls = (s.afterPasses calls).withSchemas t := by
  induction calls generalizing s with
  | nil => rfl
  | cons call calls ih =>
    rw [afterPasses_cons, afterPass_withSchemas hs, ih (forall_tame_afterPass hs call)]
    rfl

theorem namesAfter_withSchemas (es : Entries) (t : Option SchemaTable) :
    (s.withSchemas t).namesAfter es = s.namesAfter es := by
  induction es generalizing s with
  | nil => rfl
  | cons e es ih =>
    rw [namesAfter, namesAfter, afterPass_withSchemas hs, ih hs,
      ih (forall_tame_afterPass hs (.schema e.1 e.2))]
    rfl

/-! ### The walk as a sequence of passes -/

theorem afterPass_table (call : Call) : (s.afterPass call).table = s.table := by
  unfold table
  rw [afterPass_schemas hs]

/-- **The walk.** Handlers that edit no schemas are led through one pass after another, for the
mappings among the schemas to come. -/
theorem walk_of_completes {t : SchemaTable} (h_table : s.table = t) {i : Nat}
    {rest names : Entries} (h_rest : t.entriesFrom i = rest) (hd : rest.Distinct)
    (h_new : ∀ n ∈ names, ∀ e ∈ rest, n.1.same e.1 = false)
    (h_all : s.Completes (schemaCalls rest)) :
    walk t.size rest.length i names s
      = (s.afterPasses (schemaCalls rest), .ok (names ++ s.namesAfter rest)) := by
  induction rest generalizing s i names with
  | nil =>
    have h_next : s.table.next? i = none := by
      rw [h_table]
      exact SchemaTable.next?_eq_none_iff.mpr h_rest
    rw [walk_of_none (by rw [h_table]) h_next]
    exact Prod.ext rfl (congrArg Except.ok (List.append_nil names).symm)
  | cons e rest ih =>
    -- the table stands still, so the entry at hand is the first of those to come
    obtain ⟨j, h_next, h_rest'⟩ := SchemaTable.next?_of_entriesFrom h_rest
    rw [← h_table] at h_next
    have h_size : s.table.size = t.size := by rw [h_table]
    obtain ⟨h_head, h_tail⟩ := List.pairwise_cons.mp hd
    by_cases h_map : e.2.isMap
    · -- the pass for the entry, and then the walk from what it left
      rw [schemaCalls_cons_of_map rest h_map] at h_all ⊢
      obtain ⟨h_returns, h_later⟩ := h_all
      have h_pass := pass_eq_afterPass (fun h hh => (hs h hh).nameable) h_returns
      -- no schema has had the name before, so the new one goes behind the others
      have h_set : names.set e.1 (s.afterPass (.schema e.1 e.2)).currentName
          = names ++ [(e.1, (s.afterPass (.schema e.1 e.2)).currentName)] :=
        Entries.set_of_new (fun n hn => h_new n hn e List.mem_cons_self) _
      have h_new' : ∀ n ∈ names ++ [(e.1, (s.afterPass (.schema e.1 e.2)).currentName)],
          ∀ e' ∈ rest, n.1.same e'.1 = false := by
        intro n hn e' he'
        rcases List.mem_append.mp hn with hn | hn
        · exact h_new n hn e' (List.mem_cons_of_mem _ he')
        · rw [List.mem_singleton.mp hn]
          exact h_head e' he'
      rw [List.length_cons, walk_dispatches h_size h_next h_map h_pass, h_set,
        ih (forall_tame_afterPass hs _) ((afterPass_table hs _).trans h_table) h_rest' h_tail
          h_new' h_later, afterPasses_cons, namesAfter_cons_of_map rest s h_map, List.append_assoc]
      rfl
    · have h_map' : e.2.isMap = false := Bool.eq_false_iff.mpr h_map
      rw [schemaCalls_cons_of_not_map rest h_map'] at h_all ⊢
      rw [List.length_cons, walk_ignores h_size h_next h_map',
        namesAfter_cons_of_not_map rest s h_map']
      exact ih hs h_table h_rest' h_tail
        (fun n hn e' he' => h_new n hn e' (List.mem_cons_of_mem _ he')) h_all

/-- A walk that returns has gone through all its passes. -/
theorem completes_of_walk_ok {t : SchemaTable} (h_table : s.table = t) {i : Nat}
    {rest names names' : Entries} (h_rest : t.entriesFrom i = rest)
    (h_ok : (walk t.size rest.length i names s).2 = .ok names') :
    s.Completes (schemaCalls rest) := by
  -- along the entries to come, as in `walk_of_completes`
  induction rest generalizing s i names with
  | nil => trivial
  | cons e rest ih =>
    obtain ⟨j, h_next, h_rest'⟩ := SchemaTable.next?_of_entriesFrom h_rest
    rw [← h_table] at h_next
    have h_size : s.table.size = t.size := by rw [h_table]
    by_cases h_map : e.2.isMap
    · rw [schemaCalls_cons_of_map rest h_map]
      rcases h_pass : (s.enter e.1).applySchema e.1 e.2 with ⟨u, _ | f⟩
      · obtain rfl := eq_afterPass (fun h hh => (hs h hh).nameable) h_pass
        rw [List.length_cons, walk_dispatches h_size h_next h_map h_pass] at h_ok
        exact ⟨congrArg Prod.snd h_pass,
          ih (forall_tame_afterPass hs _) ((afterPass_table hs _).trans h_table) h_rest' h_ok⟩
      · -- a fault of the pass would be the answer of the walk
        rw [List.length_cons, walk_of_fault h_size h_next h_map h_pass] at h_ok
        cases h_ok
    · have h_map' : e.2.isMap = false := Bool.eq_false_iff.mpr h_map
      rw [schemaCalls_cons_of_not_map rest h_map']
      rw [List.length_cons, walk_ignores h_size h_next h_map'] at h_ok
      exact ih hs h_table h_rest' h_ok

end Tame

/-! ### The whole operation -/

/-- The mapping of a document's schemas has no two equal keys, as every mapping. -/
def SchemasDistinct (doc : Value) : Prop := ∀ es, schemasOf? doc = some es → es.Distinct

/-- A mapping that was built by setting keys is one. -/
theorem schemasDistinct_of_ofPairs {doc : Value} {pairs : List (Value × Value)}
    (h : schemasOf? doc = some (Entries.ofPairs pairs)) : SchemasDistinct doc := by
  intro es h_es
  rw [h] at h_es
  obtain rfl := Option.some.inj h_es
  exact Entries.distinct_ofPairs pairs

theorem tableOf_entries {doc : Value} (hd : SchemasDistinct doc) :
    ((tableOf doc).getD {}).entries = (schemasOf? doc).getD [] := by
  unfold tableOf
  cases h_es : schemasOf? doc with
  | none => rfl
  | some es => exact SchemaTable.entries_of_slots (SchemaTable.ofEntries_slots (hd es h_es))

section Operation

variable {s : Session} {doc : Value} (hctx : s.context.isSome) (hs : ∀ h ∈ s.handlers, h.Tame)
  (hd : SchemasDistinct doc)

include hs

/-- The pass for the document leaves the same whatever table of schemas stands beside it. -/
theorem docPass_eq (h_returns : s.Returns (.doc doc)) :
    s.docPass doc = ((s.afterPass (.doc doc)).withSchemas (tableOf doc), none) := by
  have h_names : ∀ h ∈ s.handlers, h.Nameable := fun h hh => (hs h hh).nameable
  rw [← afterPass_withSchemas hs]
  exact pass_eq_afterPass (s := s.withSchemas (tableOf doc)) h_names
    ((returns_withSchemas hs (.doc doc) _).mpr h_returns)

include hd

/-- What stands before the walk are all schemas, in their order. -/
theorem walkStart_entries (h_returns : s.Returns (.doc doc)) :
    (s.docPass doc).1.table.entriesFrom 0 = (schemasOf? doc).getD [] := by
  rw [docPass_eq hs h_returns]
  exact tableOf_entries hd

/-- The walk over the schemas, once the pass for the document is through. -/
theorem schemaWalk_eq (h_returns : s.Returns (.doc doc)) :
    s.schemaWalk doc = walk (s.docPass doc).1.table.size ((schemasOf? doc).getD []).length 0 []
      (s.docPass doc).1 := by
  rw [← walkStart_entries hs hd h_returns]
  rfl

include hctx

/-- **The operation.** If no fault gets out of the passes that it owes, the operation answers with
the names after them. What it leaves is what they leave, apart from the table of schemas and the
notice of its own. -/
theorem applyComponents_of_completes (h_all : s.Completes (callsFor doc)) :
    (s.applyComponents doc).2
        = .ok ((s.afterPass (.doc doc)).namesAfter ((schemasOf? doc).getD []))
      ∧ ∀ {α : Type} (view : Session → α), (∀ t u, view (t.withSchemas u) = view t) →
          (∀ t n, view (t.notify n) = view t) →
          view (s.applyComponents doc).1 = view (s.afterPasses (callsFor doc)) := by
  obtain ⟨h_returns, h_later⟩ := h_all
  have h_tame := forall_tame_afterPass hs (.doc doc)
  have h_doc := docPass_eq hs h_returns
  have hd' : Entries.Distinct ((schemasOf? doc).getD []) := by
    cases h_es : schemasOf? doc with
    | none => exact List.Pairwise.nil
    | some es => exact hd es h_es
  have h_walk : s.schemaWalk doc
      = (((s.afterPass (.doc doc)).withSchemas (tableOf doc)).afterPasses
          (schemaCalls ((schemasOf? doc).getD [])),
        .ok (((s.afterPass (.doc doc)).withSchemas (tableOf doc)).namesAfter
          ((schemasOf? doc).getD []))) := by
    have h_first := walkStart_entries hs hd h_returns
    rw [schemaWalk_eq hs hd h_returns]
    rw [h_doc] at h_first ⊢
    exact walk_of_completes (s := (s.afterPass (.doc doc)).withSchemas (tableOf doc)) h_tame rfl
      h_first hd' (List.forall_mem_nil _) ((completes_withSchemas h_tame _ _).mpr h_later)
  obtain ⟨h_result, h_view⟩ := applyComponents_of_none hctx (congrArg Prod.snd h_doc)
  rw [h_walk, namesAfter_withSchemas h_tame] at h_result
  refine ⟨h_result, fun view h_schemas h_notify => ?_⟩
  -- the table that the passes carried along is all that is left to forget
  rw [h_view view h_schemas h_notify, h_walk, afterPasses_withSchemas h_tame]
  exact h_schemas _ _

/-- An operation that returns has gone through all the passes that it owes. -/
theorem completes_of_ok {names : Entries} (h_ok : (s.applyComponents doc).2 = .ok names) :
    s.Completes (callsFor doc) := by
  have h_tame := forall_tame_afterPass hs (.doc doc)
  cases h_doc : (s.docPass doc).2 with
  | some f =>
    rw [applyComponents_of_fault hctx h_doc] at h_ok
    cases h_ok
  | none =>
    have h_returns : s.Returns (.doc doc) := (returns_withSchemas hs (.doc doc) _).mp h_doc
    have h_first := walkStart_entries hs hd h_returns
    rw [(applyComponents_of_none hctx h_doc).1, schemaWalk_eq hs hd h_returns] at h_ok
    rw [docPass_eq hs h_returns] at h_first h_ok
    refine ⟨h_returns, (completes_withSchemas h_tame _ (tableOf doc)).mp ?_⟩
    exact completes_of_walk_ok (s := (s.afterPass (.doc doc)).withSchemas (tableOf doc)) h_tame rfl
      h_first h_ok

/-- Handlers none of whose calls aborts cannot keep the operation from returning. -/
theorem completes_of_noneAborts
    (h_calls : NoneAborts (callsSince s (s.applyComponents doc).1)) :
    s.Completes (callsFor doc) := by
  have h_names : ∀ h ∈ s.handlers, h.Nameable := fun h hh => (hs h hh).nameable
  -- tame handlers keep the outline, so the walk meets all; what is new is that it goes by passes
  have h_tame : ∀ h ∈ (s.walkStart doc).session.handlers, h.Tame := by
    have h_doc := (docPass_returns_iff h_names hctx h_calls).mpr
      fun h hh => (hs h hh).complete .doc
    change ∀ h ∈ (s.docPass doc).1.handlers, h.Tame
    rw [docPass_eq hs ((returns_withSchemas hs (.doc doc) _).mp h_doc)]
    exact forall_tame_afterPass hs (.doc doc)
  obtain ⟨⟨names, h_ok⟩, -⟩ := dispatchesAll_of_keepsOutline h_names hctx h_calls
    (fun h hh => ⟨(hs h hh).complete, (hs h hh).brings⟩) (WalkPoint.keepsOutline_of_tame h_tame)
  exact completes_of_ok hctx hs hd h_ok

end Operation

theorem passStart_currentName {s : Session} (hctx : s.context.isSome) (k body : Value) :
    (s.passStart (.schema k body)).currentName = k := by
  obtain ⟨c, hc⟩ := Option.isSome_iff_exists.mp hctx
  unfold passStart enter currentName
  rw [hc]
  rfl

/-- What is said of an operation on a document and its schemas that goes by its schedule. -/
structure FollowsSchedule (s : Session) (doc : Value) : Prop where
  /-- It owes a pass for the document, and then one for each mapping among its schemas, in their
  order; for entries that are no mappings it owes nothing. -/
  schemas : ∀ es, HasSchemas doc es → callsFor doc = .doc doc :: es.filterMap fun
    | (k, .map fs) => some (.schema k (.map fs))
    | _ => none
  /-- A document without schemas is owed the one pass. -/
  schemaless : (∀ es, ¬ HasSchemas doc es) → callsFor doc = [.doc doc]
  /-- The handlers of a pass are those that are registered when it starts under a name that the
  configuration selects, in the order of registration. -/
  selected : ∀ before call after, callsFor doc = before ++ call :: after →
    (s.afterPasses before).handlers = (s.afterPasses before).registry.filter fun h =>
      decide ((s.config.getD {}).Selects h.name)
  /-- What is registered at one time stays registered. -/
  registered : ∀ before later after, callsFor doc = before ++ later ++ after →
    (s.afterPasses before).registry <+: (s.afterPasses (before ++ later)).registry
  /-- It returns, with a name for each schema that it owes a pass, in their order. -/
  returns : ∃ names, (s.applyComponents doc).2 = .ok names
    ∧ names.map Prod.fst = (callsFor doc).filterMap Call.schemaName?
  /-- Its calls are those owed, in the same order. -/
  calls : (callsSince s (s.applyComponents doc).1).map (fun i => (i.handler, i.call))
    = s.owed (callsFor doc)
  /-- The record has the calls of a pass one after another, each with the context that the ones
  before it left, and before them those of the passes before it. The pass calls the handlers that
  were enabled when it started. -/
  record : ∀ before call after, callsFor doc = before ++ call :: after →
    callsSince s (s.applyComponents doc).1 = s.runLog before
      ++ ((s.afterPasses before).passStart call).passLog call (s.afterPasses before).handlers
      ++ (s.afterPasses (before ++ [call])).runLog after
  /-- The pass for a schema starts with its name as the current one. -/
  named : ∀ before k body after, callsFor doc = before ++ .schema k body :: after →
    ((s.afterPasses before).passStart (.schema k body)).currentName = k
  /-- Handlers enabled at one time are called first in every pass from then on. -/
  kept : ∀ before later after, callsFor doc = before ++ later ++ after →
    (s.afterPasses before).handlers <+: (s.afterPasses (before ++ later)).handlers
  /-- The context in the end is that after all calls, one after another. -/
  context : (s.applyComponents doc).1.context = (s.afterPasses (callsFor doc)).context
  /-- So are the handlers. -/
  registry : (s.applyComponents doc).1.registry = (s.afterPasses (callsFor doc)).registry

/-- **The schedule of an operation.** With a context, with handlers that edit no schemas, and as
long as no call aborts, an operation on a document and its schemas goes by its schedule: whatever
names the handlers write, however they fail, and whichever handlers they register. -/
theorem applyComponents_followsSchedule {s : Session} {doc : Value} (hctx : s.context.isSome)
    (hs : ∀ h ∈ s.handlers, h.Tame) (hd : DistinctKeys doc)
    (h_calls : NoneAborts (callsSince s (s.applyComponents doc).1)) : s.FollowsSchedule doc := by
  have hd' : SchemasDistinct doc := fun _ h_es => hd.schemas ((schemasOf?_eq_some_iff hd).mp h_es)
  have h_all := completes_of_noneAborts hctx hs hd' h_calls
  obtain ⟨h_result, h_view⟩ := applyComponents_of_completes hctx hs hd' h_all
  have h_log : callsSince s (s.applyComponents doc).1 = s.runLog (callsFor doc) := by
    unfold callsSince
    rw [h_view Session.history (fun _ _ => rfl) fun _ _ => rfl, afterPasses_history,
      List.drop_left]
  exact {
    schemas := fun _ h_es => callsFor_eq hd h_es
    schemaless := callsFor_of_not_hasSchemas hd
    selected := by
      intro before call after _
      rw [handlers_eq, (extends_afterPasses s before).config]
    registered := by
      intro before later after _
      rw [afterPasses_append]
      exact (extends_afterPasses _ later).registry
    returns := ⟨_, h_result, (namesAfter_keys _ _).trans (callsFor_names doc).symm⟩
    calls := by rw [h_log, runLog_calls]
    record := by
      -- the record of all passes, split at the one in question
      intro before call after h_split
      rw [h_log, h_split, runLog_append, runLog, afterPasses_append, List.append_assoc]
      rfl
    named := by
      intro before k body after _
      refine passStart_currentName ?_ k body
      rw [afterPasses_context_isSome]
      exact hctx
    kept := by
      intro before later after _
      rw [afterPasses_append]
      exact (extends_afterPasses _ later).handlers
    context := h_view Session.context (fun _ _ => rfl) fun _ _ => rfl
    registry := h_view Session.registry (fun _ _ => rfl) fun _ _ => rfl }

/-! ### A registry that grows -/

/-- Three handlers: one registers another whenever it is called for a schema, one fails, and one is
disabled, although it is on the allow list. -/
def hosting : Session where
  registry :=
    [.registering (.text "host") [.schema]
      (.handler (.naming (.text "guest") [.schema] [] (some (.text "renamed")))),
     .failing (.text "broken") [.schema] (.raised .value "no"),
     .idle (.text "off")]
  config := some { enabled := some ["off", "guest", "host", "broken"], disabled := some ["off"] }

/-- A document with two schemas, and with an entry between them that is none. -/
def twoSchemas : Value :=
  .map [(.text "components", .map [(.text "schemas",
    .map [(.text "A", .map []), (.text "n", .int 1), (.text "B", .map [])])])]

theorem hosting_tame : ∀ h ∈ hosting.handlers, h.Tame := by
  intro h hh
  have h_reg : h ∈ hosting.registry := (List.mem_filter.mp hh).1
  have h_guest : (Handler.naming (.text "guest") [.schema] [] (some (.text "renamed"))).Tame :=
    Handler.tame_naming _ _ _ _
  rcases List.mem_cons.mp h_reg with rfl | h_reg
  · exact Handler.tame_registering _ _ h_guest
  rcases List.mem_pair.mp h_reg with rfl | rfl
  · exact Handler.tame_failing _ _ _
  · exact Handler.tame_idle _

theorem distinctKeys_twoSchemas : DistinctKeys twoSchemas := by
  intro ds h_ds
  obtain rfl := Value.map.inj h_ds
  refine ⟨List.pairwise_singleton _ _, fun k cs h_cs => ?_⟩
  obtain rfl := Value.map.inj (Prod.mk.inj (List.mem_singleton.mp h_cs)).2
  refine ⟨List.pairwise_singleton _ _, fun l es h_es => ?_⟩
  obtain rfl := Value.map.inj (Prod.mk.inj (List.mem_singleton.mp h_es)).2
  exact Entries.distinct_ofPairs
    [(.text "A", .map []), (.text "n", .int 1), (.text "B", .map [])]

/-- Who is called for what, and how the calls end. In the pass for the second schema the handler
registered in that for the first has its call. -/
theorem hosting_calls :
    (callsSince hosting (hosting.applyComponents twoSchemas).1).map
        (fun i => (i.handler.name, i.call, i.ending))
      = [(.text "host", .doc twoSchemas, .returned),
         (.text "broken", .doc twoSchemas, .returned),
         (.text "host", .schema (.text "A") (.map []), .returned),
         (.text "broken", .schema (.text "A") (.map []), .failed (.raised .value "no")),
         (.text "host", .schema (.text "B") (.map []), .returned),
         (.text "broken", .schema (.text "B") (.map []), .failed (.raised .value "no")),
         (.text "guest", .schema (.text "B") (.map []), .returned)] := by
  unfold applyComponents
  unfold walk
  unfold walk
  unfold walk
  unfold walk
  rfl

theorem hosting_noneAborts :
    NoneAborts (callsSince hosting (hosting.applyComponents twoSchemas).1) := by
  have h_endings := congrArg (List.map fun x => x.2.2) hosting_calls
  rw [List.map_map] at h_endings
  exact noneAborts_of_endings h_endings (by simp)

theorem hosting_followsSchedule :
    hosting.context.isSome ∧ (∀ h ∈ hosting.handlers, h.Tame) ∧ DistinctKeys twoSchemas
      ∧ NoneAborts (callsSince hosting (hosting.applyComponents twoSchemas).1)
      ∧ hosting.FollowsSchedule twoSchemas
      ∧ (hosting.owed (callsFor twoSchemas)).map (fun o => (o.1.name, o.2))
        = [(.text "host", .doc twoSchemas), (.text "broken", .doc twoSchemas),
           (.text "host", .schema (.text "A") (.map [])),
           (.text "broken", .schema (.text "A") (.map [])),
           (.text "host", .schema (.text "B") (.map [])),
           (.text "broken", .schema (.text "B") (.map [])),
           (.text "guest", .schema (.text "B") (.map []))]
      ∧ (hosting.applyComponents twoSchemas).2
        = .ok [(.text "A", .text "A"), (.text "B", .text "renamed")] := by
  have h_follows : hosting.FollowsSchedule twoSchemas :=
    applyComponents_followsSchedule rfl hosting_tame distinctKeys_twoSchemas hosting_noneAborts
  refine ⟨rfl, hosting_tame, distinctKeys_twoSchemas, hosting_noneAborts, h_follows, ?_, ?_⟩
  · -- what is owed is what was called
    have h_calls := congrArg (List.map fun x => (x.1, x.2.1)) hosting_calls
    rw [← h_follows.calls]
    rw [List.map_map] at h_calls ⊢
    exact h_calls
  · unfold applyComponents
    unfold walk
    unfold walk
    unfold walk
    unfold walk
    rfl

end Session

end SchemaNaming
