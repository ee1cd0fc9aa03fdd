import SchemaNaming.Proofs.Mapping
import SchemaNaming.Session.Dispatch

/-!
# Who is called, and for what

The dispatcher finds its handlers by searching the lists of a configuration, and the schemas of a
document by looking up two keys. Both are said here without the search:

* `RunConfig.Selects` — a configuration selects a name that it does not disable and that its allow
  list has, if there is one;
* `Session.handlers_eq` — the enabled handlers are those registered under such a name, as often as
  they are registered and in the same order;
* `Session.HasSchemas` — the schemas of a document are the entries of the mapping under `schemas` in
  the mapping under `components`;
* `Session.schemasOf?_eq_some_iff` — they are the ones that the lookups find, the keys of each
  mapping being distinct.
-/

namespace SchemaNaming

namespace RunConfig

/-- The configuration selects the name: it does not disable it, and its allow list, if there is one,
has it. -/
structure Selects (config : RunConfig) (name : Value) : Prop where
  notDisabled : ∀ names, config.disabled = some names → ∀ n ∈ names, name ≠ .text n
  allowed : ∀ names, config.enabled = some names → ∃ n ∈ names, name = .text n

theorem lists_iff (names : List String) (name : Value) :
    lists names name = true ↔ ∃ n ∈ names, name = .text n := by
  unfold lists
  rw [List.any_eq_true]
  simp only [Value.same_text_iff]

theorem isEnabled_iff (config : RunConfig) (name : Value) :
    config.isEnabled name = true ↔ config.Selects name := by
  obtain ⟨enabled, disabled⟩ := config
  have h_disabled : (!lists (disabled.getD []) name) = true
      ↔ ∀ names, disabled = some names → ∀ n ∈ names, name ≠ .text n := by
    rw [Bool.not_eq_true', ← Bool.not_eq_true, lists_iff]
    cases disabled with
    | none => simp
    | some names => simp
  cases enabled with
  | none =>
    have h_eq : isEnabled ⟨none, disabled⟩ name = !lists (disabled.getD []) name := Bool.and_true _
    rw [h_eq, h_disabled]
    exact ⟨fun h_not => ⟨h_not, nofun⟩, fun h_selects => h_selects.notDisabled⟩
  | some names =>
    have h_eq : isEnabled ⟨some names, disabled⟩ name
        = (!lists (disabled.getD []) name && lists names name) := rfl
    rw [h_eq, Bool.and_eq_true, h_disabled, lists_iff]
    constructor
    · rintro ⟨h_not, h_allowed⟩
      refine ⟨h_not, fun names' h_some => ?_⟩
      obtain rfl := Option.some.inj h_some
      exact h_allowed
    · intro h_selects
      exact ⟨h_selects.notDisabled, h_selects.allowed names rfl⟩

instance (config : RunConfig) (name : Value) : Decidable (config.Selects name) :=
  decidable_of_iff _ (config.isEnabled_iff name)

end RunConfig

namespace Session

/-- **The handlers of a pass** are the registered ones whose names are selected. -/
theorem handlers_eq (s : Session) :
    s.handlers = s.registry.filter fun h => decide ((s.config.getD {}).Selects h.name) := by
  refine List.filter_congr fun h _ => Bool.eq_iff_iff.mpr ?_
  rw [decide_eq_true_iff]
  exact RunConfig.isEnabled_iff (s.config.getD {}) h.name

/-! ### The schemas of a document -/

/-- The document has these schemas: they are the entries of the mapping under `schemas` in its
mapping under `components`. -/
def HasSchemas (doc : Value) (es : Entries) : Prop :=
  ∃ ds cs, doc = .map ds ∧ (.text "components", .map cs) ∈ ds ∧ (.text "schemas", .map es) ∈ cs

/-- No mapping has two equal keys, from the document down to its schemas. -/
def DistinctKeys (doc : Value) : Prop :=
  ∀ ds : Entries, doc = .map ds → ds.Distinct
    ∧ ∀ k, ∀ cs : Entries, (k, .map cs) ∈ ds → cs.Distinct
      ∧ ∀ l, ∀ es : Entries, (l, .map es) ∈ cs → es.Distinct

/-- **The lookups** find the schemas that the document has. -/
theorem schemasOf?_eq_some_iff {doc : Value} (hd : DistinctKeys doc) {es : Entries} :
    schemasOf? doc = some es ↔ HasSchemas doc es := by
  -- each lookup is one of a text among distinct keys
  unfold schemasOf? HasSchemas
  simp only [Option.bind_eq_bind, Option.bind_eq_some_iff, Value.entries?_eq_some_iff]
  constructor
  · rintro ⟨ds, rfl, _, h_components, cs, rfl, _, h_schemas, rfl⟩
    obtain ⟨h_ds, h_below⟩ := hd ds rfl
    have h_cs := (Entries.find?_text_iff h_ds).mp h_components
    exact ⟨ds, cs, rfl, h_cs, (Entries.find?_text_iff (h_below _ cs h_cs).1).mp h_schemas⟩
  · rintro ⟨ds, cs, rfl, h_cs, h_es⟩
    obtain ⟨h_ds, h_below⟩ := hd ds rfl
    exact ⟨ds, rfl, _, (Entries.find?_text_iff h_ds).mpr h_cs, cs, rfl, _,
      (Entries.find?_text_iff (h_below _ cs h_cs).1).mpr h_es, rfl⟩

/-- Nor do the schemas themselves have two equal keys. -/
theorem DistinctKeys.schemas {doc : Value} (hd : DistinctKeys doc) {es : Entries}
    (h_es : HasSchemas doc es) : es.Distinct := by
  obtain ⟨ds, cs, rfl, h_cs, h_mem⟩ := h_es
  exact ((hd ds rfl).2 _ cs h_cs).2 _ es h_mem

end Session

end SchemaNaming
