import Mathlib
import SchemaNaming.Config.Yaml.Stream
import SchemaNaming.Proofs.Config.Yaml.Reading

/-!
# What the steps that find tokens keep

The steps that find tokens read at the cursor, so they fail only for reasons that the text shows;
and a token with a tag is only ever found where its mark, `!`, stands. Both hold along the whole
stream.

* `Keeps` — what every step keeps;
* `Finder.fetch_spec` — finding one more token keeps it;
* `Token.accounts_of_halt_mem`, `Token.mark_of_tag_mem` — what follows for the stream of a text.
-/

set_option mvcgen.warning false

open Std.Do

namespace SchemaNaming.Config.Yaml

/-- The token has its mark in the text. -/
def Token.Marked (cs : List Char) : Token → Prop
  | .tag .. => '!' ∈ cs
  | .halt _ => False
  | _ => True

/-- What holds between two tokens: the cursor stands in the text, and the tokens found so far have
their marks in it. -/
abbrev Layout.Within (cs : List Char) (l : Layout) : Prop :=
  l.cursor.Within cs ∧ ∀ t ∈ l.tokens, t.Marked cs

/-- New tokens need marks; where they go does not matter. -/
theorem marked_of_new {cs : List Char} {before after : Array Token}
    (h : ∀ t ∈ before, t.Marked cs) (h_new : ∀ t ∈ after, t.Marked cs ∨ t ∈ before) :
    ∀ t ∈ after, t.Marked cs :=
  fun t ht => (h_new t ht).elim id (h t)

/-- **What a step that finds tokens keeps.** -/
abbrev Keeps {α : Type} (cs : List Char) : PostCond α (.arg Layout (.except Failure .pure)) :=
  post⟨fun _ l => ⌜l.Within cs⌝, fun e => ⌜Accounts cs e⌝⟩

/-- What a reader of a token keeps: its token has its mark in the text. -/
abbrev Finds (cs : List Char) : PostCond Token (.arg Cursor (.except Failure .pure)) :=
  post⟨fun t c => ⌜c.Within cs ∧ t.Marked cs⌝, fun e => ⌜Accounts cs e⌝⟩

variable {cs : List Char}

namespace Reader

theorem tag_finds (h_mark : '!' ∈ cs) : ⦃fun c => ⌜c.Within cs⌝⦄ tag ⦃Finds cs⦄ := by
  mvcgen [tag, -tag_spec]

theorem directive_finds : ⦃fun c => ⌜c.Within cs⌝⦄ directive ⦃Finds cs⦄ := by
  mvcgen [directive, versionDirective, handleDirective, -directive_spec,
    -versionDirective_spec, -handleDirective_spec]

theorem map_finds {α : Type} {r : Reader α} (f : α → Token)
    (hr : ⦃fun c => ⌜c.Within cs⌝⦄ r ⦃Stays cs⦄) (hf : ∀ a, (f a).Marked cs) :
    ⦃fun c => ⌜c.Within cs⌝⦄ (f <$> r) ⦃Finds cs⦄ := by
  mvcgen [hr]
  exact fun h_within => ⟨h_within, hf _⟩

end Reader

namespace Finder

/-! ### Single steps -/

@[spec]
theorem refuse_spec {α : Type} {Q : PostCond α (.arg Layout (.except Failure .pure))} :
    ⦃fun _ => Q.2.1 .malformed⦄ (refuse : Finder α) ⦃Q⦄ := by
  mvcgen [refuse, -Spec.throw_MonadExcept]

/-- Reading at the cursor leaves the tokens alone. -/
theorem read_lift {α : Type} {r : Reader α} {Q : α → Cursor → Prop}
    (hr : ⦃fun c => ⌜c.Within cs⌝⦄ r ⦃post⟨fun a c => ⌜Q a c⌝, fun e => ⌜Accounts cs e⌝⟩⦄) :
    ⦃fun l => ⌜l.Within cs⌝⦄ read r
    ⦃post⟨fun a l => ⌜Q a l.cursor ∧ ∀ t ∈ l.tokens, t.Marked cs⌝, fun e => ⌜Accounts cs e⌝⟩⦄ := by
  mvcgen [read, -Spec.throw_MonadExcept]
  case vc1 l h_within f h_run =>
    have h_fault := run_of_triple hr h_within.1
    rwa [StateT.run, h_run] at h_fault
  case vc2 l h_within a c h_run =>
    have h_read := run_of_triple hr h_within.1
    rw [StateT.run, h_run] at h_read
    exact ⟨h_read, h_within.2⟩

@[spec]
theorem read_spec {α : Type} {r : Reader α} (hr : ⦃fun c => ⌜c.Within cs⌝⦄ r ⦃Stays cs⦄) :
    ⦃fun l => ⌜l.Within cs⌝⦄ read r ⦃Keeps cs⦄ :=
  read_lift hr

theorem read_finds {r : Reader Token} (hr : ⦃fun c => ⌜c.Within cs⌝⦄ r ⦃Finds cs⦄) :
    ⦃fun l => ⌜l.Within cs⌝⦄ read r
    ⦃post⟨fun t l => ⌜l.Within cs ∧ t.Marked cs⌝, fun e => ⌜Accounts cs e⌝⟩⦄ := by
  have h_read := read_lift hr
  mvcgen [h_read, -read_spec]
  exact fun h_cursor h_marked h_tokens => ⟨⟨h_cursor, h_tokens⟩, h_marked⟩

@[spec]
theorem emit_spec (t : Token) : ⦃fun l => ⌜l.Within cs ∧ t.Marked cs⌝⦄ emit t ⦃Keeps cs⦄ := by
  mvcgen [emit]
  case vc1 l h _ =>
    refine ⟨h.1.1, marked_of_new h.1.2 fun u hu => ?_⟩
    rcases Array.mem_push.mp hu with hu | rfl
    · exact .inr hu
    · exact .inl h.2

theorem mem_insertIdxIfInBounds {tokens : Array Token} {position : Nat} {t u : Token}
    (h : u ∈ tokens.insertIdxIfInBounds position t) : u = t ∨ u ∈ tokens := by
  unfold Array.insertIdxIfInBounds at h
  split at h
  · exact Array.mem_insertIdx.mp h
  · exact .inr h

@[spec]
theorem insert_spec (position : Nat) (t : Token) :
    ⦃fun l => ⌜l.Within cs ∧ t.Marked cs⌝⦄ insert position t ⦃Keeps cs⦄ := by
  mvcgen [insert]
  case vc1 l h _ =>
    refine ⟨h.1.1, marked_of_new h.1.2 fun u hu => ?_⟩
    rcases mem_insertIdxIfInBounds hu with rfl | hu
    · exact .inl h.2
    · exact .inr hu

@[spec]
theorem column_spec {Q : PostCond Int (.arg Layout (.except Failure .pure))} :
    ⦃fun l => Q.1 l.cursor.column l⦄ column ⦃Q⦄ := by
  mvcgen [column]

@[spec]
theorem inBlock_spec {Q : PostCond Bool (.arg Layout (.except Failure .pure))} :
    ⦃fun l => Q.1 (l.flow = 0) l⦄ inBlock ⦃Q⦄ := by
  mvcgen [inBlock]

/-! ### Indentation and keys -/

theorem marked_of_mem_go {column indent : Int} {tokens : Array Token} {indents : List Int}
    {t : Token}
    (h : t ∈ (leaveBlocks.go column indent tokens indents).2.2) :
    t.Marked cs ∨ t ∈ tokens := by
  induction indents generalizing indent tokens with
  | nil => exact .inr h
  | cons outer indents ih =>
    rw [leaveBlocks.go] at h
    split at h
    · rcases ih h with h | h
      · exact .inl h
      · rcases Array.mem_push.mp h with h | rfl
        · exact .inr h
        · exact .inl trivial
    · exact .inr h

@[spec]
theorem leaveBlocks_spec (column : Int) :
    ⦃fun l => ⌜l.Within cs⌝⦄ leaveBlocks column ⦃Keeps cs⦄ := by
  mvcgen [leaveBlocks]
  case vc1 l h _ => exact ⟨h.1, marked_of_new h.2 fun t ht => marked_of_mem_go ht⟩

@[spec]
theorem enterBlock_spec (column : Int) :
    ⦃fun l => ⌜l.Within cs⌝⦄ enterBlock column ⦃Keeps cs⦄ := by
  mvcgen [enterBlock]

@[spec]
theorem allowKey_spec (b : Bool) : ⦃fun l => ⌜l.Within cs⌝⦄ allowKey b ⦃Keeps cs⦄ := by
  mvcgen [allowKey]

@[spec]
theorem keyStart?_spec : ⦃fun l => ⌜l.Within cs⌝⦄ keyStart? ⦃Keeps cs⦄ := by
  mvcgen [keyStart?]

@[spec]
theorem dropKeyStart_spec : ⦃fun l => ⌜l.Within cs⌝⦄ dropKeyStart ⦃Keeps cs⦄ := by
  mvcgen [dropKeyStart]

@[spec]
theorem closeKeyStart_spec : ⦃fun l => ⌜l.Within cs⌝⦄ closeKeyStart ⦃Keeps cs⦄ := by
  mvcgen [closeKeyStart]

@[spec]
theorem markKeyStart_spec : ⦃fun l => ⌜l.Within cs⌝⦄ markKeyStart ⦃Keeps cs⦄ := by
  mvcgen [markKeyStart]

@[spec]
theorem dropStaleKeyStarts_spec : ⦃fun l => ⌜l.Within cs⌝⦄ dropStaleKeyStarts ⦃Keeps cs⦄ := by
  mvcgen [dropStaleKeyStarts]

/-! ### Tokens -/

@[spec]
theorem skipToToken_spec (n : Nat) : ⦃fun l => ⌜l.Within cs⌝⦄ skipToToken n ⦃Keeps cs⦄ := by
  induction n with
  | zero => mvcgen [skipToToken]
  | succ n ih =>
    mvcgen [skipToToken, ih]

@[spec]
theorem streamEnd_spec : ⦃fun l => ⌜l.Within cs⌝⦄ streamEnd ⦃Keeps cs⦄ := by
  mvcgen [streamEnd]

@[spec]
theorem directive_spec : ⦃fun l => ⌜l.Within cs⌝⦄ directive ⦃Keeps cs⦄ := by
  have h_read := read_finds (@Reader.directive_finds cs)
  mvcgen [directive, h_read, -read_spec]

@[spec]
theorem documentMark_spec {t : Token} (ht : t.Marked cs) :
    ⦃fun l => ⌜l.Within cs⌝⦄ documentMark t ⦃Keeps cs⦄ := by
  mvcgen [documentMark]

@[spec]
theorem openFlow_spec {t : Token} (ht : t.Marked cs) :
    ⦃fun l => ⌜l.Within cs⌝⦄ openFlow t ⦃Keeps cs⦄ := by
  mvcgen [openFlow]

@[spec]
theorem closeFlow_spec {t : Token} (ht : t.Marked cs) :
    ⦃fun l => ⌜l.Within cs⌝⦄ closeFlow t ⦃Keeps cs⦄ := by
  mvcgen [closeFlow]

@[spec]
theorem flowEntry_spec : ⦃fun l => ⌜l.Within cs⌝⦄ flowEntry ⦃Keeps cs⦄ := by
  mvcgen [flowEntry]

@[spec]
theorem blockEntry_spec : ⦃fun l => ⌜l.Within cs⌝⦄ blockEntry ⦃Keeps cs⦄ := by
  mvcgen [blockEntry]

@[spec]
theorem key_spec : ⦃fun l => ⌜l.Within cs⌝⦄ key ⦃Keeps cs⦄ := by
  mvcgen [key]

@[spec]
theorem value_spec : ⦃fun l => ⌜l.Within cs⌝⦄ value ⦃Keeps cs⦄ := by
  mvcgen [value]

theorem keyWord_spec {r : Reader Token} (hr : ⦃fun c => ⌜c.Within cs⌝⦄ r ⦃Finds cs⦄) :
    ⦃fun l => ⌜l.Within cs⌝⦄ keyWord r ⦃Keeps cs⦄ := by
  have h_read := read_finds hr
  mvcgen [keyWord, h_read, -read_spec]

@[spec]
theorem blockScalar_spec (folded : Bool) :
    ⦃fun l => ⌜l.Within cs⌝⦄ blockScalar folded ⦃Keeps cs⦄ := by
  mvcgen [blockScalar]

@[spec]
theorem plainScalar_spec : ⦃fun l => ⌜l.Within cs⌝⦄ plainScalar ⦃Keeps cs⦄ := by
  mvcgen [plainScalar]

/-- A tag starts with its mark, which so stands in the text. -/
theorem keyWord_tag_spec :
    ⦃fun l => ⌜l.Within cs ∧ l.cursor.peek = '!'⌝⦄ keyWord Reader.tag ⦃Keeps cs⦄ := by
  intro l h
  have h_end : l.cursor.peek ≠ finish := by
    rw [h.2]
    decide
  have h_mark := h.1.1.peek_mem h_end
  rw [h.2] at h_mark
  exact keyWord_spec (Reader.tag_finds h_mark) l h.1

@[spec]
theorem token_spec : ⦃fun l => ⌜l.Within cs⌝⦄ token ⦃Keeps cs⦄ := by
  have h_tag := @keyWord_tag_spec cs
  have h_name (f : String → Token) (hf : ∀ name, (f name).Marked cs) :=
    keyWord_spec (Reader.map_finds f Reader.anchorName_spec hf)
  have h_alias := h_name .alias fun _ => trivial
  have h_anchor := h_name .anchor fun _ => trivial
  have h_quoted (double : Bool) := keyWord_spec
    (Reader.map_finds (Token.scalar · false) (@Reader.quoted_spec cs double) fun _ => trivial)
  mvcgen [token, h_tag, h_alias, h_anchor, h_quoted]

theorem fetch_spec : ⦃fun l => ⌜l.Within cs⌝⦄ fetch ⦃Keeps cs⦄ := by
  mvcgen [fetch]

end Finder

/-! ### Streams -/

theorem Layout.mem_settled {l : Layout} {t : Token} (h : t ∈ l.settled) : t ∈ l.tokens :=
  Array.mem_toList_iff.mp (List.mem_of_mem_take h)

/-- A token of a stream has its mark in the text, but for the failure that may end the stream, for
which the text accounts. -/
theorem Layout.streamWithin_accounts {n : Nat} {l : Layout} (h : l.Within cs) {t : Token}
    (ht : t ∈ l.streamWithin n) : t.Marked cs ∨ ∃ f, t = .halt f ∧ Accounts cs f := by
  induction n generalizing l with
  | zero =>
    rcases List.mem_append.mp ht with ht | ht
    · exact .inl (h.2 t (mem_settled ht))
    · exact .inr ⟨.malformed, List.mem_singleton.mp ht, trivial⟩
  | succ n ih =>
    have h_fetch := run_of_triple Finder.fetch_spec h
    rw [streamWithin] at ht
    split at ht
    · next f h_run =>
      rw [h_run] at h_fetch
      rcases List.mem_append.mp ht with ht | ht
      · exact .inl (h.2 t (mem_settled ht))
      · exact .inr ⟨f, List.mem_singleton.mp ht, h_fetch⟩
    · next next h_run =>
      rw [h_run] at h_fetch
      split at ht
      · exact .inl (h_fetch.2 t (Array.mem_toList_iff.mp ht))
      · exact ih h_fetch ht

theorem Token.stream_accounts (cs : List Char) {t : Token} (ht : t ∈ Token.stream cs) :
    t.Marked cs ∨ ∃ f, t = .halt f ∧ Accounts cs f := by
  unfold Token.stream at ht
  split at ht
  · have h_start : Layout.Within cs { cursor := { rest := cs } } :=
      ⟨List.suffix_refl cs, fun u hu => absurd hu (Array.not_mem_empty u)⟩
    exact Layout.streamWithin_accounts h_start ht
  · exact .inr ⟨.malformed, List.mem_singleton.mp ht, trivial⟩

/-- **A fault in the stream has its reason in the text.** -/
theorem Token.accounts_of_halt_mem {f : Failure} (h : .halt f ∈ Token.stream cs) :
    Accounts cs f := by
  rcases Token.stream_accounts cs h with h | ⟨g, h_eq, h_accounts⟩
  · cases h
  · cases h_eq
    exact h_accounts

/-- **A tag in the stream has its mark in the text.** -/
theorem Token.mark_of_tag_mem {handle : Option String} {rest : String}
    (h : .tag handle rest ∈ Token.stream cs) : '!' ∈ cs := by
  rcases Token.stream_accounts cs h with h | ⟨g, h_eq, h_accounts⟩
  · exact h
  · cases h_eq

end SchemaNaming.Config.Yaml
