import Mathlib.Data.List.Induction
import SchemaNaming.Proofs.Config.Load

/-!
# A configuration is taken whole or not at all

Data are a configuration or they are none, and nothing is made of a part of them. What makes them
one is said here without the functions that look: by what stands under the two names, and by what
that may be.

* `Data.Under` — what stands under a name; a later entry with the same key hides an earlier one;
* `Data.Describes` — the data are this configuration. Its lists are those in the data, member by
  member, and no member is anything but a text;
* `Data.config?_eq_some_iff` — on plain data the two ways to say it agree;
* `load_of_data` — loading a file that says the data;
* `load_takesWhole` — what loading such a file comes to, whatever reads the text, as long as data
  are given their shape by `Data.config?`.

Data are *plain* (`Data.Plain`) if there are no sets and no bytes among them, which would count as
lists and texts. As a configuration is read three levels deep, it is enough that they are plain so
far.
-/

namespace SchemaNaming.Config

namespace Data

/-! ### Plain data -/

/-- Down to the depth, the data are made of null, truth values, numbers, texts, lists and mappings.
What lies deeper may be anything, looked into or not. -/
inductive Plain : Nat → Data → Prop where
  | deep (d : Data) : Plain 0 d
  | null {n : Nat} : Plain (n + 1) null
  | bool {n : Nat} (b : Bool) : Plain (n + 1) (bool b)
  | number {n : Nat} : Plain (n + 1) number
  | text {n : Nat} (s : String) : Plain (n + 1) (text s)
  | sequence {n : Nat} {xs : List Data} (h_members : ∀ x ∈ xs, Plain n x) :
      Plain (n + 1) (sequence xs)
  | mapping {n : Nat} {es : List (Data × Data)} (h_values : ∀ e ∈ es, Plain n e.2) :
      Plain (n + 1) (mapping es)

theorem Plain.value {n : Nat} {es : List (Data × Data)} (h : Plain (n + 1) (.mapping es)) :
    ∀ e ∈ es, Plain n e.2 := by
  cases h with
  | mapping h_values => exact h_values

/-! ### Looking up a name -/

/-- What stands under the text `k`: nothing, or the value of the last entry with that key. -/
inductive Under (k : String) : List (Data × Data) → Option Data → Prop where
  | absent {es : List (Data × Data)} (h_absent : ∀ e ∈ es, e.1 ≠ text k) : Under k es none
  | present {before after : List (Data × Data)} {v : Data} (h_last : ∀ e ∈ after, e.1 ≠ text k) :
      Under k (before ++ (text k, v) :: after) (some v)

theorem isText_iff {k : String} {d : Data} : d.isText k = true ↔ d = text k := by
  cases d with
  | text s => exact decide_eq_true_iff.trans (text.injEq s k).to_iff.symm
  | _ => exact iff_of_false nofun nofun

/-- Among entries with other keys the name is not found. -/
theorem find?_isText_eq_none {k : String} {es : List (Data × Data)}
    (h : ∀ e ∈ es, e.1 ≠ text k) : es.find? (fun e => e.1.isText k) = none :=
  List.find?_eq_none.mpr fun e he h_key => h e he (isText_iff.mp h_key)

theorem get?_of_under {k : String} {es : List (Data × Data)} {v : Option Data}
    (h : Under k es v) : get? es k = v := by
  unfold get?
  cases h with
  | absent h_absent =>
    rw [find?_isText_eq_none fun e he => h_absent e (List.mem_reverse.mp he)]
    rfl
  | present h_last =>
    -- looked through from behind, the entry is the first with that key
    rw [List.reverse_append, List.reverse_cons, List.append_assoc, List.find?_append,
      find?_isText_eq_none fun e he => h_last e (List.mem_reverse.mp he), Option.none_or,
      List.singleton_append,
      List.find?_cons_of_pos (p := fun e : Data × Data => e.1.isText k) (isText_iff.mpr rfl)]
    rfl

theorem under_get? (k : String) (es : List (Data × Data)) : Under k es (get? es k) := by
  induction es using List.reverseRecOn with
  | nil => exact .absent (List.forall_mem_nil _)
  | append_singleton es e ih =>
    by_cases he : e.1 = text k
    · -- the last entry has the key
      obtain ⟨key, v⟩ := e
      obtain rfl : key = text k := he
      have h_under : Under k (es ++ [(text k, v)]) (some v) := .present (List.forall_mem_nil _)
      rwa [get?_of_under h_under]
    · have h_get : get? (es ++ [e]) k = get? es k := by
        unfold get?
        rw [List.reverse_append, List.reverse_singleton, List.singleton_append,
          List.find?_cons_of_neg (p := fun e : Data × Data => e.1.isText k)
            fun h_key => he (isText_iff.mp h_key)]
      rw [h_get]
      generalize get? es k = v at ih
      cases ih with
      | absent h_absent =>
        refine .absent fun x hx => ?_
        rcases List.mem_append.mp hx with hx | hx
        · exact h_absent x hx
        · rwa [List.mem_singleton.mp hx]
      | present h_last =>
        rw [List.append_assoc, List.cons_append]
        refine .present fun x hx => ?_
        rcases List.mem_append.mp hx with hx | hx
        · exact h_last x hx
        · rwa [List.mem_singleton.mp hx]

theorem under_iff {k : String} {es : List (Data × Data)} {v : Option Data} :
    Under k es v ↔ get? es k = v := by
  refine ⟨get?_of_under, ?_⟩
  rintro rfl
  exact under_get? k es

/-- What stands under a name stands in the mapping. -/
theorem exists_mem_of_under {k : String} {es : List (Data × Data)} {v : Data}
    (h : Under k es (some v)) : ∃ e ∈ es, e.2 = v := by
  cases h with
  | present => exact ⟨(text k, v), List.mem_append_right _ List.mem_cons_self, rfl⟩

/-- The entries with the key alone decide what stands under it. -/
theorem get?_filter (es : List (Data × Data)) (k : String) :
    get? (es.filter fun e => e.1.isText k) k = get? es k := by
  unfold get?
  rw [← List.filter_reverse, List.find?_filter]
  simp only [and_self, Bool.decide_eq_true]

/-! ### Configurations -/

/-- The allow list that the value under `enabled` stands for. -/
inductive AllowList : Option Data → Option (List String) → Prop where
  | absent : AllowList none none
  | null : AllowList (some null) none
  | list (ss : List String) : AllowList (some (sequence (ss.map text))) (some ss)

/-- The names that the value under `disabled` stands for. -/
inductive DisabledNames : Option Data → List String → Prop where
  | absent : DisabledNames none []
  | list (ss : List String) : DisabledNames (some (sequence (ss.map text))) ss

/-- The data are this configuration. -/
inductive Describes : Data → RunConfig → Prop where
  | mapping {es : List (Data × Data)} {e x : Option Data} {enabled : Option (List String)}
      {disabled : List String} (h_enabled : Under "enabled" es e) (h_allow : AllowList e enabled)
      (h_disabled : Under "disabled" es x) (h_names : DisabledNames x disabled) :
      Describes (mapping es) { enabled, disabled := some disabled }

theorem member?_eq_some_iff {n : Nat} {d : Data} (h : Plain (n + 1) d) {s : String} :
    d.member? = some s ↔ d = text s := by
  cases h with
  | text t => exact (Option.some.injEq t s).to_iff.trans (text.injEq t s).to_iff.symm
  | null | bool | number | sequence | mapping => exact iff_of_false nofun nofun

/-- A list of texts is read as these texts. -/
theorem mapM_member?_texts (ss : List String) : (ss.map text).mapM member? = some ss := by
  induction ss with
  | nil => rfl
  | cons s ss ih =>
    rw [List.map_cons, List.mapM_cons, ih]
    rfl

/-- Nothing else is, among plain data. -/
theorem eq_texts_of_mapM_member? {n : Nat} {xs : List Data} (h : ∀ x ∈ xs, Plain (n + 1) x)
    {ss : List String} (h_read : xs.mapM member? = some ss) : xs = ss.map text := by
  induction xs generalizing ss with
  | nil =>
    obtain rfl : [] = ss := Option.some.inj h_read
    rfl
  | cons x xs ih =>
    rw [List.mapM_cons] at h_read
    obtain ⟨s, hs, h_rest⟩ := Option.bind_eq_some_iff.mp h_read
    obtain ⟨ss', hss, h_eq⟩ := Option.bind_eq_some_iff.mp h_rest
    obtain rfl : s :: ss' = ss := Option.some.inj h_eq
    rw [(member?_eq_some_iff (h x List.mem_cons_self)).mp hs,
      ih (fun y hy => h y (List.mem_cons_of_mem x hy)) hss, List.map_cons]

theorem texts?_eq_some_iff {n : Nat} {d : Data} (h : Plain (n + 2) d) {ss : List String} :
    d.texts? = some ss ↔ d = sequence (ss.map text) := by
  constructor
  · intro h_read
    cases h with
    | sequence h_members => exact congrArg sequence (eq_texts_of_mapM_member? h_members h_read)
    | null | bool | number | text | mapping => cases h_read
  · rintro rfl
    exact mapM_member?_texts ss

theorem enabled?_of_allowList {v : Option Data} {enabled : Option (List String)}
    (h : AllowList v enabled) : enabled? v = some enabled := by
  cases h with
  | absent => rfl
  | null => rfl
  | list ss => exact congrArg (Option.map some) (mapM_member?_texts ss)

theorem allowList_of_enabled? {n : Nat} {v : Option Data}
    (h_plain : ∀ d, v = some d → Plain (n + 2) d) {enabled : Option (List String)}
    (h : enabled? v = some enabled) : AllowList v enabled := by
  unfold enabled? at h
  split at h
  · obtain rfl := Option.some.inj h
    exact .absent
  · obtain rfl := Option.some.inj h
    exact .null
  · next d _ =>
    obtain ⟨ss, h_texts, rfl⟩ := Option.map_eq_some_iff.mp h
    rw [(texts?_eq_some_iff (h_plain d rfl)).mp h_texts]
    exact .list ss

theorem disabled?_of_disabledNames {v : Option Data} {disabled : List String}
    (h : DisabledNames v disabled) : disabled? v = some disabled := by
  cases h with
  | absent => rfl
  | list => exact mapM_member?_texts disabled

theorem disabledNames_of_disabled? {n : Nat} {v : Option Data}
    (h_plain : ∀ d, v = some d → Plain (n + 2) d) {disabled : List String}
    (h : disabled? v = some disabled) : DisabledNames v disabled := by
  unfold disabled? at h
  split at h
  · obtain rfl := Option.some.inj h
    exact .absent
  · next d =>
    rw [(texts?_eq_some_iff (h_plain d rfl)).mp h]
    exact .list disabled

theorem config?_of_describes {d : Data} {c : RunConfig} (h : d.Describes c) :
    d.config? = some c := by
  cases h with
  | mapping h_enabled h_allow h_disabled h_names =>
    rw [config?, get?_of_under h_enabled, get?_of_under h_disabled, enabled?_of_allowList h_allow,
      disabled?_of_disabledNames h_names]
    rfl

/-- **The shape of a configuration.** On plain data, what is taken for a configuration are the data
that describe one. -/
theorem config?_eq_some_iff {n : Nat} {d : Data} (h : Plain (n + 3) d) {c : RunConfig} :
    d.config? = some c ↔ d.Describes c := by
  refine ⟨fun h_config => ?_, config?_of_describes⟩
  unfold config? at h_config
  split at h_config
  · next es =>
    obtain ⟨enabled, h_enabled, h_rest⟩ := Option.bind_eq_some_iff.mp h_config
    obtain ⟨disabled, h_disabled, h_eq⟩ := Option.bind_eq_some_iff.mp h_rest
    obtain rfl := Option.some.inj h_eq
    -- the values under the names are plain, as the mapping is
    have h_plain : ∀ k d, get? es k = some d → Plain (n + 2) d := by
      intro k d h_get
      obtain ⟨e, he, rfl⟩ := exists_mem_of_under (under_iff.mpr h_get)
      exact h.value e he
    exact .mapping (under_get? _ es) (allowList_of_enabled? (h_plain _) h_enabled)
      (under_get? _ es) (disabledNames_of_disabled? (h_plain _) h_disabled)
  · cases h_config

/-- Two mappings with the same entries under the two names are the same configuration, if any. -/
theorem config?_congr {es es' : List (Data × Data)}
    (h : ∀ k ∈ ["enabled", "disabled"],
      (es'.filter fun e => e.1.isText k) = es.filter fun e => e.1.isText k) :
    (mapping es').config? = (mapping es).config? := by
  have h_get : ∀ k ∈ ["enabled", "disabled"], get? es' k = get? es k := by
    intro k hk
    rw [← get?_filter es', h k hk, get?_filter]
  rw [config?, config?, h_get "enabled" List.mem_cons_self, h_get "disabled" (by decide)]

end Data

/-! ### Loading -/

section Loading

variable {r : Readers} {around : Surroundings} {path : Option String} {bytes : List UInt8}
  {d : Data}

/-- Loading a file that says the data comes to what the data are taken for. -/
theorem load_of_data (h_found : around.found? path = some (.file bytes))
    (h_data : r.Says bytes d) : r.load around path = .ok (r.accept d) := by
  obtain ⟨cs, rfl, h_parse⟩ := h_data
  have h_load := r.load_of_found around path
  rw [h_found] at h_load
  dsimp only at h_load
  rw [h_load, Readers.read_encode, h_parse]

/-- Loading gives the configuration, and there is just this much to report. -/
def Loads (r : Readers) (around : Surroundings) (path : Option String) (c : RunConfig)
    (levels : List Level) : Prop :=
  ∃ notices, r.load around path = .ok (c, notices) ∧ notices.map Notice.level = levels

theorem loads_of_accept (h_found : around.found? path = some (.file bytes))
    (h_data : r.Says bytes d) {c : RunConfig} {notices : List Notice}
    (h_accept : r.accept d = (c, notices)) : Loads r around path c (notices.map Notice.level) :=
  ⟨notices, by rw [load_of_data h_found h_data, h_accept], rfl⟩

/-- Null apart, data are taken for the configuration that they are, if they are one. -/
theorem accept_of_ne_null (h_shape : r.shape? = Data.config?) (h_null : d ≠ .null) :
    r.accept d = d.config?.elim ({}, [.configInvalid]) fun c => (c, [.configLoaded]) := by
  unfold Readers.accept
  rw [h_shape]
  split
  · exact absurd rfl h_null
  · cases d.config? <;> rfl

/-- Of the data in a file all is taken or nothing. -/
structure TakesWhole (r : Readers) (around : Surroundings) (path : Option String) (d : Data) :
    Prop where
  /-- A configuration is taken as it stands. -/
  taken : ∀ c, d.Describes c → Loads r around path c [.info]
  /-- An empty file leaves the default, and is nothing to report. -/
  empty : d = .null → Loads r around path {} []
  /-- All else leaves the default with a warning. -/
  refused : d ≠ .null → (∀ c, ¬ d.Describes c) → Loads r around path {} [.warning]
  /-- One member that is no text voids both lists, -/
  member : ∀ es k xs x, d = .mapping es → k ∈ ["enabled", "disabled"] →
    Data.Under k es (some (.sequence xs)) → x ∈ xs → (∀ s, x ≠ .text s) →
    Loads r around path {} [.warning]
  /-- and entries under other names do not matter. -/
  others : ∀ es es', d = .mapping es →
    (∀ k ∈ ["enabled", "disabled"],
      (es'.filter fun e => e.1.isText k) = es.filter fun e => e.1.isText k) →
    ∀ around' path' bytes', Surroundings.found? around' path' = some (.file bytes') →
      r.Says bytes' (.mapping es') → r.load around' path' = r.load around path

/-- A list of a configuration holds nothing but texts. -/
theorem Data.Describes.text_of_mem {es : List (Data × Data)} {c : RunConfig}
    (h : (Data.mapping es).Describes c) {k : String} (hk : k ∈ ["enabled", "disabled"])
    {xs : List Data} (h_under : Under k es (some (.sequence xs))) {x : Data} (hx : x ∈ xs) :
    ∃ s, x = text s := by
  -- whichever list it is, its members are the texts that the configuration has
  have h_texts : ∃ ss : List String, xs = ss.map text := by
    cases h with
    | mapping h_enabled h_allow h_disabled h_names =>
      rcases List.mem_pair.mp hk with rfl | rfl
      · obtain rfl := (get?_of_under h_enabled).symm.trans (get?_of_under h_under)
        cases h_allow with
        | list ss => exact ⟨ss, rfl⟩
      · obtain rfl := (get?_of_under h_disabled).symm.trans (get?_of_under h_under)
        cases h_names with
        | list => exact ⟨_, rfl⟩
  obtain ⟨ss, rfl⟩ := h_texts
  obtain ⟨s, -, rfl⟩ := List.mem_map.mp hx
  exact ⟨s, rfl⟩

/-- **All or nothing.** Whatever the texts are read with, a file that says plain data is loaded as
the configuration that the data describe, with a note of it, or else as the default configuration:
with a warning, unless the data are null. -/
theorem load_takesWhole (h_shape : r.shape? = Data.config?)
    (h_found : around.found? path = some (.file bytes)) (h_data : r.Says bytes d)
    (h_plain : Data.Plain Yaml.configDepth d) : TakesWhole r around path d := by
  have h_refused : d ≠ .null → (∀ c, ¬ d.Describes c) → Loads r around path {} [.warning] := by
    intro h_null h_none
    have h_config : d.config? = none := by
      refine Option.eq_none_iff_forall_ne_some.mpr fun c h_config => ?_
      exact h_none c ((Data.config?_eq_some_iff h_plain).mp h_config)
    exact loads_of_accept h_found h_data
      ((accept_of_ne_null h_shape h_null).trans (by rw [h_config]))
  refine ⟨fun c h => ?_, ?_, h_refused, ?_, ?_⟩
  · have h_config := Data.config?_of_describes h
    have h_null : d ≠ .null := by
      rintro rfl
      cases h
    exact loads_of_accept h_found h_data
      ((accept_of_ne_null h_shape h_null).trans (by rw [h_config]))
  · rintro rfl
    exact loads_of_accept h_found h_data rfl
  · rintro es k xs x rfl hk h_under hx h_no
    refine h_refused nofun fun c h => ?_
    obtain ⟨s, hs⟩ := h.text_of_mem hk h_under hx
    exact h_no s hs
  · rintro es es' rfl h_same around' path' bytes' h_found' h_data'
    have h_ne : ∀ es, Data.mapping es ≠ .null := fun _ => nofun
    rw [load_of_data h_found h_data, load_of_data h_found' h_data',
      accept_of_ne_null h_shape (h_ne es'), accept_of_ne_null h_shape (h_ne es),
      Data.config?_congr h_same]

end Loading

/-- The second of the allowed names is a number. -/
def spoiltText : List Char :=
  "\x7b\"disabled\": [\"b\"], \"enabled\": [\"a\", 1]\x7d".toList

def spoiltEntries : List (Data × Data) :=
  [(.text "disabled", .sequence [.text "b"]), (.text "enabled", .sequence [.text "a", .number])]

theorem spoiltEntries_plain : Data.Plain Yaml.configDepth (.mapping spoiltEntries) := by
  have h_disabled : Data.Plain 2 (.sequence [.text "b"]) :=
    .sequence (List.forall_mem_singleton.mpr (.text _))
  have h_enabled : Data.Plain 2 (.sequence [.text "a", .number]) :=
    .sequence (List.forall_mem_cons.mpr ⟨.text _, List.forall_mem_singleton.mpr .number⟩)
  exact .mapping (List.forall_mem_cons.mpr ⟨h_disabled, List.forall_mem_singleton.mpr h_enabled⟩)

theorem load_takesWhole_spoilt :
    Readers.own.shape? = Data.config?
    ∧ (homeOf (Utf8.encode spoiltText)).found? none = some (.file (Utf8.encode spoiltText))
    ∧ Readers.own.Says (Utf8.encode spoiltText) (.mapping spoiltEntries)
    ∧ Data.Plain Yaml.configDepth (.mapping spoiltEntries)
    ∧ Loads Readers.own (homeOf (Utf8.encode spoiltText)) none {} [.warning] := by
  have h_found : (homeOf (Utf8.encode spoiltText)).found? none
      = some (.file (Utf8.encode spoiltText)) := by decide +kernel
  have h_data : Readers.own.Says (Utf8.encode spoiltText) (.mapping spoiltEntries) :=
    ⟨spoiltText, rfl, by cbv⟩
  have h_under : Data.Under "enabled" spoiltEntries (some (.sequence [.text "a", .number])) :=
    Data.under_iff.mpr rfl
  have h_number : ∀ s, Data.number ≠ .text s := by
    intro s h_text
    cases h_text
  have h_whole := load_takesWhole rfl h_found h_data spoiltEntries_plain
  exact ⟨rfl, h_found, h_data, spoiltEntries_plain,
    h_whole.member _ _ _ .number rfl List.mem_cons_self h_under
      (List.mem_cons_of_mem _ List.mem_cons_self) h_number⟩

end SchemaNaming.Config
