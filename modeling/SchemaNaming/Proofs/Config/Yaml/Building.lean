import Mathlib
import SchemaNaming.Config.Yaml.Typing
import SchemaNaming.Proofs.Config.Yaml.Outcome

/-!
# The graph of a text without tags

Whether a node can be at fault depends on its tag. In a text without tags a collection has the tag
of its kind, and a scalar is a text or has the tag of its form; then it is a plain scalar of the
text, or stands where a node is missing.

* `Graph.Untagged` — a graph of such nodes;
* `Draft.Follows` — what building keeps;
* `Builder.Parses` — what the builders that call each other keep, within a number of steps;
* `Graph.ofTokens_untagged` — what follows for the graph of a text.

A collection gets its tag before its members and its content after them. That the tag is still
there by then is a part of what building keeps: the list `K` names the nodes that are, and stay,
collections.
-/

set_option mvcgen.warning false

open Std.Do

namespace SchemaNaming.Config.Yaml

/-! ### Graphs -/

/-- The node has the tag of a collection, or it is a scalar with the tag that its form gives it. -/
def Node.Untagged (ts : List Token) (n : Node) : Prop :=
  n.tag ∈ Graph.collectionTags ∨ ∃ s, n.content = .scalar s ∧
    (n.tag = Tag.str ∨ n.tag = Tag.ofPlain s.chars ∧ (s = {} ∨ .scalar s true ∈ ts))

namespace Graph

/-- All nodes of the graph have the tags of their kinds and forms. -/
def Untagged (ts : List Token) (g : Graph) : Prop :=
  ∀ (id : Nat) (n : Node), g[id]? = some n → n.Untagged ts

variable {ts : List Token} {g : Graph}

theorem isCollection_iff {id : Nat} :
    g.isCollection id = true ↔ ∃ n, g[id]? = some n ∧ n.tag ∈ collectionTags := by
  rw [isCollection, tagOf, List.contains_iff_mem]
  cases g[id]? with
  | none => simp [collectionTags, Tag.seq, Tag.map, Tag.set, Tag.omap, Tag.pairs, Tag.standard]
  | some n => simp

theorem isCollection_push {id : Nat} (n : Node) (h : g.isCollection id = true) :
    Graph.isCollection (g.push n) id = true := by
  obtain ⟨m, hm, h_tag⟩ := isCollection_iff.mp h
  refine isCollection_iff.mpr ⟨m, ?_, h_tag⟩
  rw [Array.getElem?_push, if_neg (Nat.ne_of_lt (Array.getElem?_eq_some_iff.mp hm).1), hm]

theorem isCollection_push_self {n : Node} (h : n.tag ∈ collectionTags) :
    Graph.isCollection (g.push n) g.size = true :=
  isCollection_iff.mpr ⟨n, Array.getElem?_push_size, h⟩

theorem isCollection_modify {f : Node → Node} (hf : ∀ n, (f n).tag = n.tag) (id j : Nat) :
    Graph.isCollection (g.modify id f) j = g.isCollection j := by
  rw [isCollection, isCollection, tagOf, tagOf, Array.getElem?_modify]
  split
  · cases g[j]? with
    | none => rfl
    | some n => rw [Option.map_some, Option.map_some, Option.map_some, hf]
  · rfl

theorem Untagged.push (hg : g.Untagged ts) {n : Node} (hn : n.Untagged ts) :
    Graph.Untagged ts (g.push n) := by
  intro id m hm
  rw [Array.getElem?_push] at hm
  split at hm
  · exact Option.some.inj hm ▸ hn
  · exact hg id m hm

theorem Untagged.modify (hg : g.Untagged ts) {id : Nat} {f : Node → Node}
    (hf : ∀ n, g[id]? = some n → (f n).Untagged ts) : Graph.Untagged ts (g.modify id f) := by
  intro j m hm
  rw [Array.getElem?_modify] at hm
  split at hm
  · next h_eq =>
    obtain ⟨n, hn, rfl⟩ := Option.map_eq_some_iff.mp hm
    exact hf n (h_eq ▸ hn)
  · exact hg j m hm

/-- Only a collection may get other content. -/
theorem Untagged.fill (hg : g.Untagged ts) {id : Nat} (h_id : g.isCollection id = true)
    (c : Content) : Graph.Untagged ts (g.modify id fun n => { n with content := c }) := by
  obtain ⟨m, hm, h_tag⟩ := isCollection_iff.mp h_id
  refine hg.modify fun n hn => .inl ?_
  rw [hm] at hn
  exact Option.some.inj hn ▸ h_tag

end Graph

/-! ### Single steps -/

/-- **What building keeps.** The tokens at hand are the last of the text, the nodes are untagged,
and the nodes in `K` are collections. -/
structure Draft.Follows (ts : List Token) (K : List Nat) (d : Draft) : Prop where
  tokens : d.tokens <:+ ts
  graph : d.graph.Untagged ts
  kept : ∀ id ∈ K, d.graph.isCollection id = true

/-- The failure is one in which the tokens end, unless they just make no document. -/
def Halts (ts : List Token) : Failure → Prop
  | .malformed => True
  | .fault f => .halt (.fault f) ∈ ts

/-- What a builder keeps: it follows the tokens, or it fails as they do. -/
abbrev Grows {α : Type} (ts : List Token) (K : List Nat) :
    PostCond α (.arg Draft (.except Failure .pure)) :=
  post⟨fun _ d => ⌜d.Follows ts K⌝, fun e => ⌜Halts ts e⌝⟩

namespace Builder

variable {ts : List Token} {K : List Nat}

@[spec]
theorem refuse_spec {α : Type} {Q : PostCond α (.arg Draft (.except Failure .pure))} :
    ⦃fun _ => Q.2.1 .malformed⦄ (refuse : Builder α) ⦃Q⦄ := by
  mvcgen [refuse, -Spec.throw_MonadExcept]

theorem peek_mem :
    ⦃fun d => ⌜d.Follows ts K⌝⦄ peek
    ⦃post⟨fun t d => ⌜d.Follows ts K ∧ t ∈ ts⌝, fun e => ⌜Halts ts e⌝⟩⦄ := by
  mvcgen [peek, -Spec.throw_MonadExcept]
  case vc1 d h f rest h_tokens =>
    cases f with
    | malformed => trivial
    | fault f => exact h.1.subset (h_tokens ▸ List.mem_cons_self)
  case vc2 d h t rest _ h_tokens =>
    exact ⟨h, h.1.subset (h_tokens ▸ List.mem_cons_self)⟩

@[spec]
theorem peek_spec : ⦃fun d => ⌜d.Follows ts K⌝⦄ peek ⦃Grows ts K⦄ := by
  have h_peek := @peek_mem ts K
  mvcgen [h_peek]
  exact fun h _ => h

@[spec]
theorem take_spec : ⦃fun d => ⌜d.Follows ts K⌝⦄ take ⦃Grows ts K⦄ := by
  mvcgen [take]
  case vc1 d h _ => exact ⟨(List.drop_suffix 1 d.tokens).trans h.1, h.2, h.3⟩

@[spec]
theorem accept_spec (t : Token) : ⦃fun d => ⌜d.Follows ts K⌝⦄ accept t ⦃Grows ts K⦄ := by
  mvcgen [accept]

@[spec]
theorem sees_spec (us : List Token) : ⦃fun d => ⌜d.Follows ts K⌝⦄ sees us ⦃Grows ts K⦄ := by
  mvcgen [sees]

theorem seq_mem : Tag.seq ∈ Graph.collectionTags := by simp [Graph.collectionTags]

theorem map_mem : Tag.map ∈ Graph.collectionTags := by simp [Graph.collectionTags]

theorem add_spec (anchor : Option String) {n : Node} (hn : n.Untagged ts) :
    ⦃fun d => ⌜d.Follows ts K⌝⦄ add anchor n ⦃Grows ts K⦄ := by
  mvcgen [add]
  case vc1 | vc3 =>
    have h := ‹Draft.Follows ts K _›
    exact ⟨h.tokens, h.graph.push hn, fun id h_id => Graph.isCollection_push n (h.kept id h_id)⟩

theorem add_collection_spec (anchor : Option String) {n : Node}
    (hn : n.tag ∈ Graph.collectionTags) :
    ⦃fun d => ⌜d.Follows ts K⌝⦄ add anchor n
    ⦃post⟨fun id d => ⌜d.Follows ts (id :: K)⌝, fun e => ⌜Halts ts e⌝⟩⦄ := by
  mvcgen [add]
  case vc1 | vc3 =>
    have h := ‹Draft.Follows ts K _›
    refine ⟨h.tokens, h.graph.push (.inl hn), fun id h_id => ?_⟩
    rcases List.mem_cons.mp h_id with rfl | h_id
    · exact Graph.isCollection_push_self hn
    · exact Graph.isCollection_push n (h.kept id h_id)

theorem add_scalar_spec (anchor : Option String) {plain : Bool} {s : Scalar}
    (h : s = {} ∨ .scalar s plain ∈ ts) :
    ⦃fun d => ⌜d.Follows ts K⌝⦄
    add anchor ⟨scalarTag none plain s, .scalar s⟩ ⦃Grows ts K⦄ := by
  refine add_spec anchor (.inr ⟨s, rfl, ?_⟩)
  cases plain with
  | false => exact .inl rfl
  | true => exact .inr ⟨rfl, h⟩

@[spec]
theorem empty_spec : ⦃fun d => ⌜d.Follows ts K⌝⦄ empty ⦃Grows ts K⦄ :=
  add_spec none (.inr ⟨{}, rfl, .inr ⟨rfl, .inl rfl⟩⟩)

theorem fill_spec (id : Nat) (c : Content) :
    ⦃fun d => ⌜d.Follows ts (id :: K)⌝⦄ fill id c ⦃Grows ts K⦄ := by
  mvcgen [fill]
  case vc1 d h _ =>
    refine ⟨h.tokens, h.graph.fill (h.kept id List.mem_cons_self) c, fun j hj => ?_⟩
    have h_kept := h.kept j (List.mem_cons_of_mem id hj)
    refine (Graph.isCollection_modify ?_ id j).trans h_kept
    exact fun n => rfl

@[spec]
theorem anchor?_spec : ⦃fun d => ⌜d.Follows ts K⌝⦄ anchor? ⦃Grows ts K⦄ := by
  mvcgen [anchor?]

/-! ### Nodes -/

section Untagged

variable (h_tags : ∀ handle rest, .tag handle rest ∉ ts)

include h_tags in
theorem tag?_spec :
    ⦃fun d => ⌜d.Follows ts K⌝⦄ tag?
    ⦃post⟨fun t d => ⌜d.Follows ts K ∧ t = none⌝, fun e => ⌜Halts ts e⌝⟩⦄ := by
  refine Triple.bind _ _ peek_mem fun t => triple_of_pure fun ht => ?_
  split
  · exact absurd ht (h_tags _ _)
  · mvcgen

include h_tags in
theorem properties_spec :
    ⦃fun d => ⌜d.Follows ts K⌝⦄ properties
    ⦃post⟨fun t d => ⌜d.Follows ts K ∧ t.2 = none⌝, fun e => ⌜Halts ts e⌝⟩⦄ := by
  refine Triple.bind _ _ anchor?_spec fun anchor => ?_
  extract_lets finish
  have h_finish (a : Option String) : ⦃fun d => ⌜d.Follows ts K⌝⦄ finish (a, none)
      ⦃post⟨fun t d => ⌜d.Follows ts K ∧ t.2 = none⌝, fun e => ⌜Halts ts e⌝⟩⦄ := by
    mvcgen [finish]
  cases anchor with
  | some a =>
    refine Triple.bind _ _ (tag?_spec h_tags) fun tag => triple_of_pure fun h_none => ?_
    rw [h_none]
    exact h_finish (some a)
  | none =>
    refine Triple.bind _ _ (tag?_spec h_tags) fun tag => triple_of_pure fun h_none => ?_
    rw [h_none]
    exact h_finish none

theorem refuseUnless_spec (anchor : Option String) :
    ⦃fun d => ⌜d.Follows ts K⌝⦄ refuseUnless anchor none ⦃Grows ts K⦄ := by
  have h_add := @add_scalar_spec ts K anchor true {} (.inl rfl)
  mvcgen [refuseUnless, h_add]

/-- **What the builders that call each other keep** within `n` steps. -/
structure Parses (ts : List Token) (n : Nat) : Prop where
  node {K : List Nat} (block indentless : Bool) :
    ⦃fun d => ⌜d.Follows ts K⌝⦄ Builder.node block indentless n ⦃Grows ts K⦄
  nodeUnless {K : List Nat} (ends : List Token) (block indentless : Bool) :
    ⦃fun d => ⌜d.Follows ts K⌝⦄ Builder.nodeUnless ends block indentless n ⦃Grows ts K⦄
  blockItems {K : List Nat} :
    ⦃fun d => ⌜d.Follows ts K⌝⦄ Builder.blockItems n ⦃Grows ts K⦄
  indentlessItems {K : List Nat} :
    ⦃fun d => ⌜d.Follows ts K⌝⦄ Builder.indentlessItems n ⦃Grows ts K⦄
  blockEntries {K : List Nat} :
    ⦃fun d => ⌜d.Follows ts K⌝⦄ Builder.blockEntries n ⦃Grows ts K⦄
  flowValue {K : List Nat} (ends : List Token) :
    ⦃fun d => ⌜d.Follows ts K⌝⦄ Builder.flowValue ends n ⦃Grows ts K⦄
  flowItems {K : List Nat} (first : Bool) :
    ⦃fun d => ⌜d.Follows ts K⌝⦄ Builder.flowItems first n ⦃Grows ts K⦄
  flowEntries {K : List Nat} (first : Bool) :
    ⦃fun d => ⌜d.Follows ts K⌝⦄ Builder.flowEntries first n ⦃Grows ts K⦄

namespace Parses

variable {n : Nat}

theorem zero : Parses ts 0 := by
  constructor <;> intros
  · mvcgen [Builder.node]
  · mvcgen [Builder.nodeUnless]
  · mvcgen [Builder.blockItems]
  · mvcgen [Builder.indentlessItems]
  · mvcgen [Builder.blockEntries]
  · mvcgen [Builder.flowValue]
  · mvcgen [Builder.flowItems]
  · mvcgen [Builder.flowEntries]

/-- A collection keeps its tag while its members are built. -/
theorem collection_spec {α : Type} {items : Builder α} {tag : String}
    (h_tag : tag ∈ Graph.collectionTags)
    (h_items : ∀ {K : List Nat}, ⦃fun d => ⌜d.Follows ts K⌝⦄ items ⦃Grows ts K⦄)
    (anchor : Option String) (c : Content) (f : α → Content) :
    ⦃fun d => ⌜d.Follows ts K⌝⦄ (do
      let id ← add anchor ⟨tag, c⟩
      fill id (f (← items))) ⦃Grows ts K⦄ :=
  Triple.bind _ _ (add_collection_spec anchor h_tag) fun id =>
    Triple.bind _ _ h_items fun a => fill_spec id (f a)

include h_tags in
theorem node_succ (ih : Parses ts n) (block indentless : Bool) :
    ⦃fun d => ⌜d.Follows ts K⌝⦄ Builder.node block indentless (n + 1) ⦃Grows ts K⦄ := by
  rw [Builder.node]
  refine Triple.bind _ _ peek_spec fun t => ?_
  extract_lets rest
  have h_rest : ⦃fun d => ⌜d.Follows ts K⌝⦄ rest () ⦃Grows ts K⦄ := by
    refine Triple.bind _ _ (properties_spec h_tags) fun ⟨anchor, tag⟩ => ?_
    refine triple_of_pure fun h_tag => ?_
    cases h_tag
    refine Triple.bind _ _ peek_mem fun t => triple_of_pure fun ht => ?_
    -- From here on the cases are those of the token: which collection it starts, if any.
    split
    · exact collection_spec seq_mem ih.indentlessItems anchor _ _
    · split
      · refine Triple.bind _ _ take_spec fun _ => add_scalar_spec anchor (.inr ht)
      · refine Triple.bind _ _ take_spec fun _ => ?_
        exact collection_spec seq_mem (ih.flowItems true) anchor _ _
      · refine Triple.bind _ _ take_spec fun _ => ?_
        exact collection_spec map_mem (ih.flowEntries true) anchor _ _
      · split
        · exact refuseUnless_spec anchor
        · refine Triple.bind _ _ take_spec fun _ => ?_
          exact collection_spec seq_mem ih.blockItems anchor _ _
      · split
        · exact refuseUnless_spec anchor
        · refine Triple.bind _ _ take_spec fun _ => ?_
          exact collection_spec map_mem ih.blockEntries anchor _ _
      · exact refuseUnless_spec anchor
  split
  · mvcgen
  · exact h_rest

theorem nodeUnless_succ (ih : Parses ts n) (ends : List Token) (block indentless : Bool) :
    ⦃fun d => ⌜d.Follows ts K⌝⦄ Builder.nodeUnless ends block indentless (n + 1) ⦃Grows ts K⦄ := by
  obtain ⟨h_node, -⟩ := ih
  mvcgen [Builder.nodeUnless, h_node]

theorem blockItems_succ (ih : Parses ts n) :
    ⦃fun d => ⌜d.Follows ts K⌝⦄ Builder.blockItems (n + 1) ⦃Grows ts K⦄ := by
  obtain ⟨-, h_nodeUnless, h_blockItems, -⟩ := ih
  mvcgen [Builder.blockItems, h_nodeUnless, h_blockItems]

theorem indentlessItems_succ (ih : Parses ts n) :
    ⦃fun d => ⌜d.Follows ts K⌝⦄ Builder.indentlessItems (n + 1) ⦃Grows ts K⦄ := by
  obtain ⟨-, h_nodeUnless, -, h_indentlessItems, -⟩ := ih
  mvcgen [Builder.indentlessItems, h_nodeUnless, h_indentlessItems]

theorem blockEntries_succ (ih : Parses ts n) :
    ⦃fun d => ⌜d.Follows ts K⌝⦄ Builder.blockEntries (n + 1) ⦃Grows ts K⦄ := by
  obtain ⟨-, h_nodeUnless, -, -, h_blockEntries, -⟩ := ih
  mvcgen [Builder.blockEntries, h_nodeUnless, h_blockEntries]

theorem flowValue_succ (ih : Parses ts n) (ends : List Token) :
    ⦃fun d => ⌜d.Follows ts K⌝⦄ Builder.flowValue ends (n + 1) ⦃Grows ts K⦄ := by
  obtain ⟨-, h_nodeUnless, -⟩ := ih
  mvcgen [Builder.flowValue, h_nodeUnless]

/-- The mapping that a single entry between brackets makes. -/
theorem flowPair_spec (ih : Parses ts n) {rest : Nat → Builder (List Nat)}
    (h_rest : ∀ item, ⦃fun d => ⌜d.Follows ts K⌝⦄ rest item ⦃Grows ts K⦄) :
    ⦃fun d => ⌜d.Follows ts K⌝⦄ (do
      let id ← add none ⟨Tag.map, .mapping []⟩
      let k ← Builder.nodeUnless [.value, .flowEntry, .flowSequenceEnd] false false n
      let v ← Builder.flowValue [.flowEntry, .flowSequenceEnd] n
      let item ← fill id (.mapping [(k, v)])
      rest item) ⦃Grows ts K⦄ :=
  Triple.bind _ _ (add_collection_spec none map_mem) fun id =>
    Triple.bind _ _ (ih.nodeUnless _ _ _) fun _ =>
      Triple.bind _ _ (ih.flowValue _) fun _ => Triple.bind _ _ (fill_spec id _) h_rest

theorem flowItems_succ (ih : Parses ts n) (first : Bool) :
    ⦃fun d => ⌜d.Follows ts K⌝⦄ Builder.flowItems first (n + 1) ⦃Grows ts K⦄ := by
  have h_pair := @flowPair_spec ts K n ih
  obtain ⟨h_node, -, -, -, -, -, h_flowItems, -⟩ := ih
  have h_rest (item : Nat) : ⦃fun d => ⌜d.Follows ts K⌝⦄
      (do return item :: (← Builder.flowItems false n) : Builder (List Nat)) ⦃Grows ts K⦄ := by
    mvcgen [h_flowItems]
  mvcgen [Builder.flowItems, h_node, h_flowItems]
  case vc11 d h | vc21 d h => exact h_pair h_rest d h

theorem flowEntries_succ (ih : Parses ts n) (first : Bool) :
    ⦃fun d => ⌜d.Follows ts K⌝⦄ Builder.flowEntries first (n + 1) ⦃Grows ts K⦄ := by
  obtain ⟨h_node, h_nodeUnless, -, -, -, h_flowValue, -, h_flowEntries⟩ := ih
  mvcgen [Builder.flowEntries, h_node, h_nodeUnless, h_flowValue, h_flowEntries]

end Parses

include h_tags in
theorem parses (n : Nat) : Parses ts n := by
  induction n with
  | zero => exact .zero
  | succ n ih =>
    exact ⟨Parses.node_succ h_tags ih, Parses.nodeUnless_succ ih, Parses.blockItems_succ ih,
      Parses.indentlessItems_succ ih, Parses.blockEntries_succ ih, Parses.flowValue_succ ih,
      Parses.flowItems_succ ih, Parses.flowEntries_succ ih⟩

/-! ### Documents -/

@[spec]
theorem steps_spec : ⦃fun d => ⌜d.Follows ts K⌝⦄ steps ⦃Grows ts K⦄ := by
  mvcgen [steps]

@[spec]
theorem directives_spec (version : Bool) (n : Nat) :
    ⦃fun d => ⌜d.Follows ts K⌝⦄ directives version n ⦃Grows ts K⦄ := by
  induction n generalizing version with
  | zero => mvcgen [directives]
  | succ n ih =>
    mvcgen [directives, ih]
    case vc10 h _ => exact ⟨h.tokens, h.graph, h.kept⟩

@[spec]
theorem addStandardHandles_spec :
    ⦃fun d => ⌜d.Follows ts K⌝⦄ addStandardHandles ⦃Grows ts K⦄ := by
  mvcgen [addStandardHandles]
  case vc1 h _ => exact ⟨h.tokens, h.graph, h.kept⟩

@[spec]
theorem skipDocumentEnds_spec (n : Nat) :
    ⦃fun d => ⌜d.Follows ts K⌝⦄ skipDocumentEnds n ⦃Grows ts K⦄ := by
  induction n with
  | zero => mvcgen [skipDocumentEnds]
  | succ n ih => mvcgen [skipDocumentEnds, ih]

@[spec]
theorem documentStart_spec :
    ⦃fun d => ⌜d.Follows ts K⌝⦄ documentStart ⦃Grows ts K⦄ := by
  mvcgen [documentStart]

include h_tags in
theorem root?_spec : ⦃fun d => ⌜d.Follows ts K⌝⦄ root? ⦃Grows ts K⦄ := by
  have h_node (n : Nat) := @Parses.node ts n (parses h_tags n)
  mvcgen [root?, h_node]

include h_tags in
theorem onlyRoot?_spec : ⦃fun d => ⌜d.Follows ts K⌝⦄ onlyRoot? ⦃Grows ts K⦄ := by
  have h_root := @root?_spec ts K h_tags
  mvcgen [onlyRoot?, h_root]
  case vc10 h _ => exact ⟨h.tokens, h.graph, h.kept⟩

end Untagged

end Builder

/-- **The graph of a text without tags.** Its nodes have the tags of their forms. -/
theorem Graph.ofTokens_untagged {ts : List Token} (h_tags : ∀ handle rest, .tag handle rest ∉ ts) :
    Outcome (fun r => r.1.Untagged ts) (Halts ts) (Graph.ofTokens ts) := by
  have h_start : Draft.Follows ts [] { tokens := ts } := by
    refine ⟨List.suffix_refl ts, fun id n hn => ?_, fun id h_id => absurd h_id List.not_mem_nil⟩
    cases hn
  exact (run_of_triple (Builder.onlyRoot?_spec h_tags) h_start).bind fun r h => h.graph

end SchemaNaming.Config.Yaml
