import SchemaNaming.Proofs.Config.Yaml.Building
import SchemaNaming.Proofs.Config.Yaml.Finding

/-!
# Faults of typed nodes

In a text without tags only one kind of node can be at fault: a plain scalar that has the form of a
truth value, a number or a time stamp and is none. Merging mappings and visiting the nodes change
nothing about that, since they give no node another tag but a text's.

* `Scalar.Misfits` — the scalar is such a scalar, with this fault;
* `Graph.scalarData_fault` — a node at fault is such a scalar;
* `Graph.mergedWithin_keeps` — merging leaves nodes untagged;
* `Graph.check_outcome` — so does the visit of all nodes, and its faults are those of scalars;
* `fault_of_parse` — where the faults of a text come from.
-/

namespace SchemaNaming.Config.Yaml

/-- The scalar has the form of a type but is none of it. -/
def Scalar.Misfits (s : Scalar) (f : ReadFault) : Prop :=
  (Tag.ofPlain s.chars = Tag.bool ∧ Graph.boolData s = .error (.fault f))
    ∨ (Tag.ofPlain s.chars = Tag.int ∧ checkInteger s.points = .error f)
    ∨ (Tag.ofPlain s.chars = Tag.float ∧ checkFloating s.points = .error f)
    ∨ (Tag.ofPlain s.chars = Tag.timestamp ∧ Graph.timestampData s = .error (.fault f))

/-- A scalar in the form of a text is one. -/
theorem Scalar.not_misfits_of_str {s : Scalar} (h : Tag.ofPlain s.chars = Tag.str)
    {f : ReadFault} : ¬ s.Misfits f := by
  rintro (⟨h_bool, -⟩ | ⟨h_int, -⟩ | ⟨h_float, -⟩ | ⟨h_timestamp, -⟩) <;>
    simp_all [Tag.str, Tag.bool, Tag.int, Tag.float, Tag.timestamp, Tag.standard]

/-- What fails in a text without tags: the stream, or a plain scalar. -/
def Blames (ts : List Token) : Failure → Prop
  | .malformed => True
  | .fault f => .halt (.fault f) ∈ ts ∨ ∃ s, .scalar s true ∈ ts ∧ s.Misfits f

theorem Halts.blames {ts : List Token} {e : Failure} (h : Halts ts e) : Blames ts e := by
  cases e with
  | malformed => trivial
  | fault f => exact .inl h

namespace Graph

variable {ts : List Token} {g : Graph}

/-! ### Scalars -/

theorem checked_eq_fault {check : Except ReadFault Unit} {d : Data} {f : ReadFault}
    (h : checked check d = .error (.fault f)) : check = .error f := by
  unfold checked at h
  split at h
  · cases h; rfl
  · cases h

theorem binaryData_ne_fault {s : Scalar} {f : ReadFault} : binaryData s ≠ .error (.fault f) := by
  unfold binaryData
  split
  · split <;> exact nofun
  · exact nofun

/-- **Nodes at fault.** In an untagged graph they are plain scalars that do not fit their form. -/
theorem scalarData_fault (hg : g.Untagged ts) {id : Nat} (h_id : g.isCollection id = false)
    {f : ReadFault} (h : g.scalarData id = .error (.fault f)) :
    ∃ s, .scalar s true ∈ ts ∧ s.Misfits f := by
  unfold scalarData at h
  extract_lets tag at h
  split at h
  · cases h
  cases hn : g[id]? with
  | none =>
    have h_none : g.scalarOf (g.size + 1) id = .error .malformed := by simp [scalarOf, hn]
    rw [h_none] at h
    cases h
  | some n =>
    have h_untagged := hg id n hn
    have h_tag : tag = n.tag := by
      change (g[id]?.map Node.tag).getD "" = n.tag
      rw [hn]
      rfl
    rcases h_untagged with h_collection | ⟨s, h_content, h_form⟩
    · exact absurd (isCollection_iff.mpr ⟨n, hn, h_collection⟩) (by simp [h_id])
    have h_scalar : g.scalarOf (g.size + 1) id = .ok s := by simp [scalarOf, hn, h_content]
    have h_mapping : g.isMapping id = false := by simp [isMapping, hn, h_content]
    rw [h_scalar, h_tag] at h
    simp only [h_mapping] at h
    -- A text asks for nothing, and nor does the scalar that stands where a node is missing.
    rcases h_form with h_str | ⟨h_plain, h_origin⟩
    · rw [h_str] at h
      simp [Tag.str, Tag.null, Tag.bool, Tag.int, Tag.float, Tag.binary, Tag.timestamp,
        Tag.standard] at h
    rcases h_origin with rfl | h_mem
    · rw [h_plain] at h
      cases h
    refine ⟨s, h_mem, ?_⟩
    rw [h_plain] at h
    split at h
    · cases h
    split at h
    · next h_bool => exact .inl ⟨h_bool, h⟩
    split at h
    · next h_int => exact .inr (.inl ⟨h_int, checked_eq_fault h⟩)
    split at h
    · next h_float => exact .inr (.inr (.inl ⟨h_float, checked_eq_fault h⟩))
    split at h
    · exact absurd h binaryData_ne_fault
    split at h
    · next h_timestamp => exact .inr (.inr (.inr ⟨h_timestamp, h⟩))
    cases h

/-! ### Merging -/

/-- What merging keeps: nodes have the tags of their forms, and collections stay collections. -/
structure Keeps (ts : List Token) (g g' : Graph) : Prop where
  untagged : g'.Untagged ts
  collections : ∀ id, g.isCollection id = true → g'.isCollection id = true

theorem Keeps.refl (hg : g.Untagged ts) : Keeps ts g g := ⟨hg, fun _ h => h⟩

theorem Keeps.trans {g₁ g₂ g₃ : Graph} (h : Keeps ts g₁ g₂) (h' : Keeps ts g₂ g₃) :
    Keeps ts g₁ g₃ :=
  ⟨h'.untagged, fun id h_id => h'.collections id (h.collections id h_id)⟩

/-- A mapping is a collection. -/
theorem isCollection_of_entries (hg : g.Untagged ts) {id : Nat} (h : g.entriesOf id ≠ []) :
    g.isCollection id = true := by
  cases hn : g[id]? with
  | none => exact absurd (by simp [entriesOf, hn]) h
  | some n =>
    rcases hg id n hn with h_tag | ⟨s, h_scalar, -⟩
    · exact isCollection_iff.mpr ⟨n, hn, h_tag⟩
    · exact absurd (by simp [entriesOf, hn, h_scalar]) h

theorem setEntries_keeps (hg : g.Untagged ts) {id : Nat} (h_id : g.isCollection id = true)
    (es : List (Nat × Nat)) : Keeps ts g (g.setEntries id es) := by
  refine ⟨hg.fill h_id _, fun j hj => (isCollection_modify ?_ id j).trans hj⟩
  exact fun n => rfl

/-- A key with the value tag is a scalar, so it may become a text. -/
theorem textKey_keeps (hg : g.Untagged ts) {id : Nat} (h_value : g.tagOf id = Tag.value) :
    Keeps ts g (g.modify id fun n => { n with tag := Tag.str }) := by
  have h_tag {n : Node} (hn : g[id]? = some n) : n.tag ∉ collectionTags := by
    have h_eq : n.tag = Tag.value := by simpa [tagOf, hn] using h_value
    rw [h_eq]
    simp [collectionTags, Tag.value, Tag.seq, Tag.map, Tag.set, Tag.omap, Tag.pairs, Tag.standard]
  refine ⟨hg.modify fun n hn => ?_, fun j hj => ?_⟩
  · rcases hg id n hn with h_collection | ⟨s, h_scalar, -⟩
    · exact absurd h_collection (h_tag hn)
    · exact .inr ⟨s, h_scalar, .inl rfl⟩
  · obtain ⟨m, hm, h_collection⟩ := isCollection_iff.mp hj
    have h_ne : id ≠ j := by
      rintro rfl
      exact h_tag hm h_collection
    refine isCollection_iff.mpr ⟨m, ?_, h_collection⟩
    rw [Array.getElem?_modify, if_neg h_ne, hm]

theorem textKeys_keeps (hg : g.Untagged ts) (es : List (Nat × Nat)) :
    Keeps ts g (g.textKeys es) := by
  unfold textKeys
  induction es generalizing g with
  | nil => exact .refl hg
  | cons e es ih =>
    rw [List.foldl_cons]
    split
    · next h_value =>
      have h_key := textKey_keeps hg h_value
      exact h_key.trans (ih h_key.untagged)
    · exact ih hg

theorem mergeSources_outcome (id : Nat) :
    Outcome (fun _ => True) (· = .malformed) (g.mergeSources id) := by
  unfold mergeSources
  split
  · trivial
  · split
    · split
      · trivial
      · rfl
    · rfl

/-- **Merging.** It fails only for mappings that cannot be merged. -/
theorem mergedWithin_keeps (n : Nat) (hg : g.Untagged ts) (id : Nat) :
    Outcome (Keeps ts g) (· = .malformed) (mergedWithin n g id) := by
  induction n generalizing g id with
  | zero => rfl
  | succ n ih =>
    rw [mergedWithin]
    extract_lets own
    split
    · exact textKeys_keeps hg _
    · next h_merge =>
      have h_entries : g.entriesOf id ≠ [] := by
        intro h_nil
        rw [h_nil] at h_merge
        exact h_merge rfl
      have h_id := isCollection_of_entries hg h_entries
      refine Outcome.bind (Outcome.flatMapM fun e => mergeSources_outcome e.2) fun sources _ => ?_
      -- The mapping loses its merge keys, its sources are merged in turn, and it gets all entries.
      have h_own := setEntries_keeps hg h_id own
      have h_start := h_own.trans (textKeys_keeps h_own.untagged own)
      refine Outcome.bind (Outcome.foldlM h_start fun g' j hg' => ?_) fun g' hg' => ?_
      · exact (ih hg'.untagged j).mono (fun g'' h => hg'.trans h) fun _ h => h
      · exact hg'.trans (setEntries_keeps hg'.untagged (hg'.collections id h_id) _)

theorem merged_outcome (hg : g.Untagged ts) (id : Nat) :
    Outcome (Untagged ts) (Blames ts) (g.merged id) :=
  (mergedWithin_keeps (g.size + 1) hg id).mono (fun _ h => h.untagged) fun e h => by
    subst h
    trivial

/-! ### Visiting the nodes -/

namespace Visit

variable {v : Visit}

theorem meet_outcome (hv : v.graph.Untagged ts) (id : Nat) :
    Outcome (fun v' => v'.graph.Untagged ts) (Blames ts) (v.meet id) := by
  unfold meet
  split
  · exact hv
  split
  · exact hv
  · next h_id =>
    cases h : v.graph.scalarData id with
    | ok d => exact hv
    | error e =>
      cases e with
      | malformed => trivial
      | fault f => exact .inr (scalarData_fault hv (Bool.eq_false_iff.mpr h_id) h)

theorem meetEntry_outcome (hv : v.graph.Untagged ts) (e : Nat × Nat) :
    Outcome (fun v' => v'.graph.Untagged ts) (Blames ts) (v.meetEntry e) := by
  refine (meet_outcome hv e.1).bind fun v' hv' => ?_
  extract_lets rest
  split
  · trivial
  · exact meet_outcome hv' e.2

theorem meetPair_outcome (hv : v.graph.Untagged ts) (id : Nat) :
    Outcome (fun v' => v'.graph.Untagged ts) (Blames ts) (v.meetPair id) := by
  unfold meetPair
  split
  · exact (meet_outcome hv _).bind fun v' hv' => meet_outcome hv' _
  · trivial

theorem enter_outcome (hv : v.graph.Untagged ts) (id : Nat) :
    Outcome (fun v' => v'.graph.Untagged ts) (Blames ts) (v.enter id) := by
  unfold enter
  extract_lets tag rest
  split
  · split
    · trivial
    · refine (merged_outcome hv id).bind fun g hg => ?_
      exact Outcome.foldlM hg fun _ e h => meetEntry_outcome h e
  split
  · trivial
  split
  · exact Outcome.foldlM hv fun _ id h => meet_outcome h id
  · exact Outcome.foldlM hv fun _ id h => meetPair_outcome h id

theorem rounds_outcome (n : Nat) (hv : v.graph.Untagged ts) :
    Outcome (fun v' => v'.graph.Untagged ts) (Blames ts) (v.rounds n) := by
  induction n generalizing v with
  | zero => exact hv
  | succ n ih =>
    rw [rounds]
    split
    · exact hv
    · have h_round : Outcome (fun v' => v'.graph.Untagged ts) (Blames ts)
          (v.waiting.reverse.foldlM enter { v with waiting := [] }) :=
        Outcome.foldlM hv fun _ id h => enter_outcome h id
      exact h_round.bind fun _ h => ih h

end Visit

theorem check_outcome (hg : g.Untagged ts) (root : Nat) :
    Outcome (fun v => v.graph.Untagged ts) (Blames ts) (g.check root) :=
  (Visit.meet_outcome hg root).bind fun _ hv => Visit.rounds_outcome _ hv

end Graph

/-- **Faults of YAML texts.** The text has a tag, or the fault's reason stands in it, or one of its
plain scalars does not fit its form. -/
theorem fault_of_parse {cs : List Char} {f : ReadFault} (h : parse cs = .error (.fault f)) :
    '!' ∈ cs ∨ Accounts cs (.fault f) ∨ ∃ s, .scalar s true ∈ Token.stream cs ∧ s.Misfits f := by
  by_cases h_mark : '!' ∈ cs
  · exact .inl h_mark
  refine .inr ?_
  have h_tags : ∀ handle rest, .tag handle rest ∉ Token.stream cs :=
    fun handle rest h_tag => h_mark (Token.mark_of_tag_mem h_tag)
  have h_graph := (Graph.ofTokens_untagged h_tags).mono (fun _ hg => hg) fun _ he => he.blames
  have h_parse : Outcome (fun _ => True) (Blames (Token.stream cs)) (parse cs) := by
    refine h_graph.bind fun ⟨g, root⟩ hg => ?_
    cases root with
    | none => trivial
    | some root => exact (Graph.check_outcome hg root).bind fun _ _ => trivial
  rw [h] at h_parse
  rcases h_parse with h_halt | h_scalar
  · exact .inl (Token.accounts_of_halt_mem h_halt)
  · exact .inr h_scalar

end SchemaNaming.Config.Yaml
