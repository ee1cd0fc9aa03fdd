import SchemaNaming.Proofs.Cms.AllOrNothing
import SchemaNaming.Proofs.Cms.Operation

/-!
# Reading recorded names back

A context is written to by its caller, by handlers that are called past the dispatcher, and by
handlers that the dispatcher calls. `Session.names_readBack` follows a context through any sequence
of these. At every point what is read back under a name is what was recorded last under it, by
whichever of them, and the map of names exists as soon as something was recorded.

What was recorded in a run is `Session.recorded`, the writes among the effects that the run carried
out. The account does not ask who wrote, or how the operation ended that the write was part of.

* `Session.traced_followsRecords` — the map of names follows the effects;
* `Effect.Identifies` — what handlers for `x-cms` blocks do: they record identifiers that are not
  blank, under texts;
* `Session.NamesTexts` — the runs in question.
-/

namespace SchemaNaming

namespace Effect

/-- The name and the identifier that the effect records. -/
def record? : Effect → Option (String × String)
  | setName (.text name) (.text resolved) => some (name, resolved)
  | _ => none

/-- The effect writes to the map of names only texts under texts. -/
def WritesTexts : Effect → Prop
  | setName name resolved => (∃ n, name = .text n) ∧ ∃ r, resolved = .text r
  | replaceContext _ => False
  | _ => True

/-- The effect records an identifier that is not blank, or it sets the current name, or it fails. -/
def Identifies : Effect → Prop
  | setName name resolved =>
    (∃ n, name = .text n) ∧ ∃ r, resolved = .text r ∧ isBlankText r = false
  | setSchemaName _ => True
  | fail _ => True
  | _ => False

theorem Identifies.writesTexts {e : Effect} (he : e.Identifies) : e.WritesTexts := by
  cases e with
  | setName name resolved =>
    obtain ⟨h_name, r, h_resolved, -⟩ := he
    exact ⟨h_name, r, h_resolved⟩
  | replaceContext context => exact he
  | _ => trivial

theorem Identifies.not_blank {e : Effect} (he : e.Identifies) {r : String × String}
    (hr : e.record? = some r) : isBlankText r.2 = false := by
  cases e with
  | setName name resolved =>
    obtain ⟨⟨n, rfl⟩, t, rfl, h_blank⟩ := he
    obtain rfl := Option.some.inj hr
    exact h_blank
  | _ => cases hr

end Effect

namespace Session

/-! ### The map of names follows the effects -/

/-- What the effects record, one after another, where there is a context to record it in. -/
def recordsAmong (es : List Effect) : List (String × String) := es.filterMap Effect.record?

/-- If the effects write texts only, then from `s` to `t` the map of names changed by what they
record, and by nothing else. -/
def FollowsRecords (s : Session) (es : List Effect) (t : Session) : Prop :=
  (∀ e ∈ es, e.WritesTexts) → ∀ c, s.context = some c →
    ∃ d, t.context = some d ∧ d.nameMap = (c.recordAll (recordsAmong es)).nameMap

theorem followsRecords_of_same {s t : Session}
    (h : t.context.map Context.nameMap = s.context.map Context.nameMap) :
    FollowsRecords s [] t := by
  intro _ c hc
  rw [hc, Option.map_some, Option.map_eq_some_iff] at h
  exact h

/-- **The map of names follows the effects**, in whatever calls and operations they occur. -/
theorem traced_followsRecords : Traced FollowsRecords where
  own h := followsRecords_of_same h.names
  effect s e := by
    intro he c hc
    have he : e.WritesTexts := he e List.mem_cons_self
    cases e with
    | setName name resolved =>
      obtain ⟨⟨n, rfl⟩, r, rfl⟩ := he
      refine ⟨c.record n r, ?_, rfl⟩
      unfold perform
      rw [hc]
      rfl
    | setSchemaName name =>
      refine ⟨{ c with schemaName := name }, ?_, rfl⟩
      unfold perform
      rw [hc]
    | replaceContext context => cases he
    | register candidate => exact ⟨c, hc, rfl⟩
    | dropSchema | putSchema =>
      refine ⟨c, ?_, rfl⟩
      unfold perform
      dsimp only
      repeat' split
      all_goals exact hc
    | fail fault => exact ⟨c, hc, rfl⟩
  trans {s t u es fs} hst htu := by
    intro h_texts c hc
    obtain ⟨h_es, h_fs⟩ := List.forall_mem_append.mp h_texts
    obtain ⟨d, hd, h_map⟩ := hst h_es c hc
    obtain ⟨d', hd', h_map'⟩ := htu h_fs d hd
    refine ⟨d', hd', ?_⟩
    rw [h_map', recordsAmong, recordsAmong, List.filterMap_append, Context.recordAll_append]
    exact Context.recordAll_nameMap_congr h_map _

end Session

namespace Cms

/-! ### The effects of handlers for blocks -/

theorem docIdentifier?_not_blank {raw : Value} {r : String × String}
    (hr : docIdentifier? raw = some r) : isBlankText r.2 = false := by
  obtain ⟨m, hm, -, h_id, -, h_some⟩ := docIdentifier?_eq_some_iff.mp hr
  rw [← h_id] at h_some ⊢
  exact Metadata.identifier_not_blank (schema_not_blank hm) h_some

theorem identifier?_not_blank {name r : String} {raw : Value} (hr : identifier? name raw = some r) :
    isBlankText r = false := by
  obtain ⟨m, hm, h_id, h_some⟩ := identifier?_eq_some_iff.mp hr
  rw [← h_id] at h_some ⊢
  -- the name may stand in for the content type, but never for the schema
  have h_schema := schema_not_blank hm
  exact Metadata.identifier_not_blank (m := m.forSchema name) h_schema h_some

/-- The call is for a document, or for a schema whose name is a text. -/
def OnText (call : Call) : Prop := ∀ name, call.schemaName? = some name → ∃ n, name = .text n

/-- Of the document's schemas, if it has any, all names are texts, each of them the key of one
schema. -/
def HasTextNames (doc : Value) : Prop :=
  ∃ ks, (Session.schemasOf? doc).getD [] = entriesOf ks ∧ (ks.map Prod.fst).Nodup

theorem onText_doc (raw : Value) : OnText (.doc raw) := nofun

theorem onText_schema {name raw : Value} (h : ∃ n, name = .text n) : OnText (.schema name raw) := by
  rintro _ h_name
  obtain rfl := Option.some.inj h_name
  exact h

theorem react_identifies {call : Call} (h_text : OnText call) (context : Option Context) :
    ∀ e ∈ react call context, e.Identifies := by
  cases context with
  | none =>
    cases call <;> exact List.forall_mem_nil _
  | some c =>
    cases call with
    | doc raw =>
      unfold react
      dsimp only
      rw [docName_eq]
      cases readFault? raw with
      | some f => exact List.forall_mem_singleton.mpr trivial
      | none =>
        cases h_id : docIdentifier? raw with
        | none => exact List.forall_mem_nil _
        | some r =>
          refine List.forall_mem_singleton.mpr ⟨⟨r.1, rfl⟩, r.2, rfl, ?_⟩
          exact docIdentifier?_not_blank h_id
    | schema name raw =>
      obtain ⟨n, rfl⟩ := h_text name rfl
      unfold react
      dsimp only
      rw [schemaIdentifier_text]
      cases readFault? raw with
      | some f => exact List.forall_mem_singleton.mpr trivial
      | none =>
        cases h_id : identifier? n raw with
        | none => exact List.forall_mem_nil _
        | some r =>
          refine List.forall_mem_cons.mpr ⟨⟨⟨n, rfl⟩, r, rfl, ?_⟩, ?_⟩
          · exact identifier?_not_blank h_id
          · exact List.forall_mem_singleton.mpr trivial

end Cms

namespace Session

open Cms

/-- **A pass** of such handlers has only effects of theirs. -/
theorem passEffects_identify {call : Call} (h_text : OnText call) {hs : List Handler}
    (h_cms : ∀ h ∈ hs, h.IsCms) (s : Session) :
    ∀ e ∈ s.passEffects call hs, e.Identifies := by
  induction hs generalizing s with
  | nil => exact List.forall_mem_nil _
  | cons h hs ih =>
    unfold passEffects
    refine List.forall_mem_append.mpr ⟨fun e he => ?_, ?_⟩
    · have h_mem := s.callEffects_subset h call he
      rw [(h_cms h List.mem_cons_self).react_eq] at h_mem
      exact react_identifies h_text s.context e h_mem
    · split
      · exact List.forall_mem_nil _
      · exact ih (fun g hg => h_cms g (List.mem_cons_of_mem _ hg)) _

/-- **A walk** over schemas with texts for names has only effects of theirs, too. -/
theorem walkEffects_identify {size left i : Nat} {s : Session} (h_cms : ∀ h ∈ s.handlers, h.IsCms)
    (h_texts : ∀ e ∈ s.table.entries, ∃ n, e.1 = .text n) :
    ∀ e ∈ walkEffects size left i s, e.Identifies := by
  fun_induction walkEffects size left i s with
  | case1 | case2 | case3 => exact List.forall_mem_nil _
  | case4 i s h_size j name body left h_next h_map ih =>
    -- the schema at hand is one of the table, which the pass leaves as it is
    have h_mem : (name, body) ∈ s.table.entries := by
      refine ((List.drop_sublist i s.table.slots).filterMap id).mem ?_
      change (name, body) ∈ s.table.entriesFrom i
      rw [SchemaTable.entriesFrom_of_next? h_next]
      exact List.mem_cons_self
    have h_text : OnText (.schema name body) := onText_schema (h_texts (name, body) h_mem)
    refine List.forall_mem_append.mpr ⟨passEffects_identify h_text h_cms _, ?_⟩
    have h_host : ((s.enter name).applySchema name body).1.host = s.host :=
      host_pass h_cms (s.enter name) (.schema name body)
    rcases h_pass : (s.enter name).applySchema name body with ⟨t, _ | f⟩
    · rw [h_pass] at h_host
      exact ih t (by rwa [handlers_of_host h_host]) (by rwa [table_of_host h_host])
    · exact List.forall_mem_nil _
  | case5 i s h_size j name body left h_next h_map ih => exact ih h_cms h_texts

theorem componentsEffects_identify {s : Session} (h_cms : ∀ h ∈ s.handlers, h.IsCms) {doc : Value}
    {ks : List (String × Value)} (h_schemas : (schemasOf? doc).getD [] = entriesOf ks)
    (hk : (ks.map Prod.fst).Nodup) : ∀ e ∈ s.componentsEffects doc, e.Identifies := by
  unfold componentsEffects
  split
  · exact List.forall_mem_nil _
  · refine List.forall_mem_append.mpr ⟨passEffects_identify (onText_doc doc) h_cms _, ?_⟩
    have h_host : (s.docPass doc).1.host = (s.withSchemas (tableOf doc)).host :=
      host_pass h_cms (s.withSchemas (tableOf doc)) (.doc doc)
    rcases h_pass : s.docPass doc with ⟨t, _ | f⟩
    · rw [h_pass] at h_host
      have h_handlers : t.handlers = s.handlers :=
        handlers_of_host (s := s.withSchemas (tableOf doc)) h_host
      refine walkEffects_identify (by rwa [h_handlers]) ?_
      rw [table_of_host h_host]
      intro e he
      have he : e ∈ entriesOf ks := by
        rw [← h_schemas, ← tableOf_entries (schemasDistinct_of_texts h_schemas hk)]
        exact he
      obtain ⟨x, -, rfl⟩ := List.mem_map.mp he
      exact ⟨x.1, rfl⟩
    · exact List.forall_mem_nil _

end Session

/-! ### Runs -/

/-- The step, taken in the session, keeps the context and writes to it only texts under texts. The
caller gives names as texts, and only handlers for `x-cms` blocks are enabled where handlers are
called. Anything may be done to the registry, to the configuration and to the names of handlers. -/
def Step.NamesTexts (s : Session) : Step → Prop
  | setContext _ => False
  | setName name resolved => (∃ n, name = .text n) ∧ ∃ r, resolved = .text r
  | applyDoc _ => ∀ h ∈ s.handlers, h.IsCms
  | applySchema name _ => (∃ n, name = .text n) ∧ ∀ h ∈ s.handlers, h.IsCms
  | applyComponents doc => Cms.HasTextNames doc ∧ ∀ h ∈ s.handlers, h.IsCms
  | callShipped call => Cms.OnText call
  | _ => True

/-- The context's owner records a name. -/
def Step.isSetName : Step → Bool
  | setName _ _ => true
  | _ => false

namespace Session

open Cms

/-- Each step is such a step. -/
def NamesTexts (s : Session) : List Step → Prop
  | [] => True
  | step :: steps => step.NamesTexts s ∧ (s.step step).1.NamesTexts steps

/-- **What is recorded in a run**, one name after another. -/
def recorded (s : Session) : List Step → List (String × String)
  | [] => []
  | step :: steps => recordsAmong (s.effects step) ++ (s.step step).1.recorded steps

theorem namesTexts_append {s : Session} {steps later : List Step} :
    s.NamesTexts (steps ++ later) ↔ s.NamesTexts steps ∧ (s.after steps).NamesTexts later := by
  induction steps generalizing s with
  | nil => exact (and_iff_right trivial).symm
  | cons step steps ih =>
    rw [List.cons_append, after_cons, NamesTexts, NamesTexts, ih, and_assoc]

theorem recorded_append (s : Session) (steps later : List Step) :
    s.recorded (steps ++ later) = s.recorded steps ++ (s.after steps).recorded later := by
  induction steps generalizing s with
  | nil => rfl
  | cons step steps ih =>
    rw [List.cons_append, after_cons, recorded, recorded, ih, List.append_assoc]

/-- Handlers for blocks are behind all effects of such a step, unless the caller itself records a
name or offers a candidate. -/
theorem effects_identify {s : Session} {step : Step} (h_step : step.NamesTexts s) {e : Effect}
    (he : e ∈ s.effects step) :
    e.Identifies ∨ step.isSetName = true ∨ ∃ c, e = .register c := by
  cases step with
  | register c => exact .inr (.inr ⟨c, List.mem_singleton.mp he⟩)
  | setName name resolved => exact .inr (.inl rfl)
  | applyDoc doc => exact .inl (passEffects_identify (onText_doc doc) h_step s e he)
  | applySchema name body =>
    exact .inl (passEffects_identify (onText_schema h_step.1) h_step.2 s e he)
  | applyComponents doc =>
    obtain ⟨⟨ks, h_schemas, hk⟩, h_cms⟩ := h_step
    exact .inl (componentsEffects_identify h_cms h_schemas hk e he)
  | callShipped call =>
    exact .inl (react_identifies h_step s.context e (s.carried_subset _ he))
  | _ => cases he

theorem effects_writeTexts {s : Session} {step : Step} (h_step : step.NamesTexts s) :
    ∀ e ∈ s.effects step, e.WritesTexts := by
  intro e he
  rcases effects_identify h_step he with h | h | ⟨c, rfl⟩
  · exact h.writesTexts
  · cases step with
    | setName name resolved =>
      rw [List.mem_singleton.mp he]
      exact h_step
    | _ => cases h
  · trivial

/-- **One step** changes the map of names by what it records. -/
theorem step_followsRecords {s : Session} {step : Step} (h_step : step.NamesTexts s) {c : Context}
    (hc : s.context = some c) :
    ∃ d, (s.step step).1.context = some d
      ∧ d.nameMap = (c.recordAll (recordsAmong (s.effects step))).nameMap := by
  have h_follows : FollowsRecords s (s.effects step) (s.step step).1 := by
    cases h_own : step.intervenes with
    | false => exact traced_followsRecords.step s step h_own
    | true =>
      -- a new registry or a new name of a handler does not concern the context
      cases step with
      | newRegistry shipped => cases shipped <;> exact followsRecords_of_same rfl
      | rename index name =>
        refine followsRecords_of_same ?_
        unfold Session.step
        dsimp only
        split <;> rfl
      | setContext context => cases h_step
      | _ => cases h_own
  exact h_follows (effects_writeTexts h_step) c hc

/-- **A run** changes the map of names by what is recorded in it. -/
theorem run_nameMap {s : Session} {steps : List Step} (h_steps : s.NamesTexts steps) {c : Context}
    (hc : s.context = some c) :
    ∃ d, (s.after steps).context = some d
      ∧ d.nameMap = (c.recordAll (s.recorded steps)).nameMap := by
  induction steps generalizing s c with
  | nil => exact ⟨c, hc, rfl⟩
  | cons step steps ih =>
    obtain ⟨h_step, h_rest⟩ := h_steps
    obtain ⟨d, hd, h_map⟩ := step_followsRecords h_step hc
    obtain ⟨d', hd', h_map'⟩ := ih h_rest hd
    refine ⟨d', by rwa [after_cons], ?_⟩
    rw [h_map', recorded, Context.recordAll_append]
    exact Context.recordAll_nameMap_congr h_map _

/-- Each step of a run is such a step where it is taken. -/
theorem namesTexts_at {s : Session} {steps done rest : List Step} {step : Step}
    (h_steps : s.NamesTexts steps) (h_split : steps = done ++ step :: rest) :
    step.NamesTexts (s.after done) := by
  rw [h_split, namesTexts_append] at h_steps
  exact h_steps.2.1

/-- **Reading back.** Take a context without a map of names through any run in which names are
recorded by its owner, by calls of the shipped handler and by operations with handlers for `x-cms`
blocks only, whatever the data and however the calls and operations end. At every point of the run

* what is read back under a name is what was recorded last under it, or the name itself;
* there is a map of names exactly if something was recorded, and it is not empty;
* its keys stand in the order in which they were first recorded, and stay where they are later on;
* nothing that a handler recorded is blank. -/
theorem names_readBack {s : Session} {c : Context} (hc : s.context = some c)
    (h_new : c.nameMap = none) {before later : List Step}
    (h_steps : s.NamesTexts (before ++ later)) :
    ∃ d d', (s.after before).context = some d ∧ (s.after (before ++ later)).context = some d'
      ∧ (∀ x : String, d.resolvedName (.text x)
          = .ok (.text (((s.recorded before).reverse.lookup x).getD x)))
      ∧ (d.nameMap = none ↔ s.recorded before = [])
      ∧ d.nameMap ≠ some []
      ∧ d.names.keys = ((s.recorded before).map Prod.fst).eraseDups.map .text
      ∧ d.names.keys <+: d'.names.keys
      ∧ ∀ done step rest, before ++ later = done ++ step :: rest → step.isSetName = false →
          ∀ r ∈ recordsAmong ((s.after done).effects step), isBlankText r.2 = false := by
  obtain ⟨d, hd, h_map⟩ := run_nameMap (namesTexts_append.mp h_steps).1 hc
  obtain ⟨d', hd', h_map'⟩ := run_nameMap h_steps hc
  rw [recorded_append] at h_map'
  have h_holds := Context.holds_of_nameMap h_new h_map
  have h_holds' := Context.holds_of_nameMap h_new h_map'
  refine ⟨d, d', hd, hd', h_holds.resolvedName, h_holds.nameMap_eq_none_iff,
    h_holds.nameMap_ne_empty, h_holds.keys, h_holds.keys_prefix h_holds', ?_⟩
  intro done step rest h_split h_handler r hr
  obtain ⟨e, he, h_record⟩ := List.mem_filterMap.mp hr
  rcases effects_identify (namesTexts_at h_steps h_split) he with h | h | ⟨x, rfl⟩
  · exact h.not_blank h_record
  · rw [h_handler] at h
    cases h
  · cases h_record

/-- A name recorded by the owner, an operation that records it anew, a call that ends the run, and
another name recorded by the owner. -/
def mixedRun : List Step :=
  [.setName (.text "article") (.text "mine"), .applyComponents mixedDoc,
   .callShipped (.schema (.text "Post") (.map [(.text "x-cms",
     .map [(.text "version", .foreign 0 (.error (.raised .exit "stop")))])])),
   .setName (.text "Bad") (.text "mine too")]

theorem recorded_mixedRun :
    shippedOnly.recorded mixedRun
      = [("article", "mine"), ("article", "article@v2"), ("Post", "post@v2"),
          ("Bad", "mine too")] := by
  decide +kernel

theorem names_readBack_mixedRun :
    ∃ d, shippedOnly.context = some {} ∧ shippedOnly.NamesTexts (mixedRun ++ [])
      ∧ (shippedOnly.after mixedRun).context = some d
      ∧ d.resolvedName (.text "article") = .ok (.text "article@v2")
      ∧ d.resolvedName (.text "note") = .ok (.text "note")
      ∧ d.nameMap ≠ none
      ∧ d.names.keys = [.text "article", .text "Post", .text "Bad"] := by
  have h_cms : ∀ h ∈ shippedOnly.handlers, h.IsCms := fun h hh => (shippedOnly_isCms h hh).1
  have h_steps : shippedOnly.NamesTexts (mixedRun ++ []) :=
    ⟨⟨⟨_, rfl⟩, _, rfl⟩, ⟨⟨mixedSchemas, rfl, by decide⟩, h_cms⟩, onText_schema ⟨_, rfl⟩,
      ⟨⟨_, rfl⟩, _, rfl⟩, trivial⟩
  obtain ⟨d, -, hd, -, h_read, h_none, -, h_keys, -⟩ := names_readBack rfl rfl h_steps
  rw [recorded_mixedRun] at h_read h_none h_keys
  refine ⟨d, rfl, h_steps, hd, h_read "article", h_read "note", ?_, h_keys⟩
  rw [ne_eq, h_none]
  exact List.cons_ne_nil _ _

end Session

end SchemaNaming
