import SchemaNaming.Config.Json.Printer
import SchemaNaming.Proofs.Config.Shape

/-!
# A configuration is read as it was written

The JSON text of a configuration is loaded as that configuration, whatever texts its lists hold. The
proof goes through the layers of the reader, and each takes back what one layer of the printer did:

* `Units.read_text` — up to the closing quote the code units of the text are found, whether they
  stand for themselves or in escapes (`Units.read_escape`), and `Units.join_ofChars` — these spell
  the text, with characters beyond U+FFFF in pairs of surrogates;
* `Reads` — a text is read as a list of tokens, whatever follows. Texts that are read so can be put
  together, and `reads_printConfig` puts the tokens of a configuration together;
* `Machine.run_tokensOfList` — the tokens of a list of texts give the list;
* `parse_printConfig` — the data of the text as a whole.

Around this the text is ASCII without control characters, so neither the encoding nor the custom of
line breaks changes anything (`unifyBreaks_printConfig`).
-/

namespace SchemaNaming.Config

namespace Json

/-! ### Escapes -/

theorem hexValue?_hexDigit {d : Nat} (hd : d < 16) : hexValue? (Text.hexDigit d) = some d := by
  have h_all : ∀ d < 16, hexValue? (Text.hexDigit d) = some d := by decide
  exact h_all d hd

theorem hexDigits_four (u : Nat) : Text.hexDigits 4 u
    = [Text.hexDigit (u / 4096 % 16), Text.hexDigit (u / 256 % 16), Text.hexDigit (u / 16 % 16),
      Text.hexDigit (u / 1 % 16)] := rfl

/-- Four digits are read as the number that they write. -/
theorem hexValues?_hexDigits {u : Nat} (hu : u < 0x10000) :
    hexValues? (Text.hexDigit (u / 4096 % 16)) (Text.hexDigit (u / 256 % 16))
      (Text.hexDigit (u / 16 % 16)) (Text.hexDigit (u / 1 % 16)) = some u := by
  have h_digit : ∀ n, hexValue? (Text.hexDigit (n % 16)) = some (n % 16) :=
    fun n => hexValue?_hexDigit (Nat.mod_lt n (by decide))
  unfold hexValues?
  rw [h_digit, h_digit, h_digit, h_digit]
  change some _ = some u
  congr 1
  omega

namespace Units

/-- The code units that spell a character: its number, or a pair of surrogates. -/
def ofChar (c : Char) : List Nat :=
  if c.toNat < 0x10000 then [c.toNat]
  else [0xD800 + (c.toNat - 0x10000) / 0x400, 0xDC00 + (c.toNat - 0x10000) % 0x400]

/-- What is read where some more units stand in front. -/
def after (us : List Nat) (found : Option (List Nat × List Char)) :
    Option (List Nat × List Char) :=
  found.map fun p => (us ++ p.1, p.2)

theorem after_append (us vs : List Nat) (found : Option (List Nat × List Char)) :
    after (us ++ vs) found = after us (after vs found) := by
  cases found with
  | none => rfl
  | some p => exact congrArg (fun ws => some (ws, p.2)) (List.append_assoc us vs p.1)

section Read

variable (cs : List Char)

theorem read_escapeUnit {u : Nat} (hu : u < 0x10000) :
    read (escapeUnit u ++ cs) = after [u] (read cs) := by
  unfold escapeUnit
  rw [hexDigits_four]
  change read ('\\' :: 'u' :: Text.hexDigit _ :: Text.hexDigit _ :: Text.hexDigit _
    :: Text.hexDigit _ :: cs) = _
  rw [read, hexValues?_hexDigits hu]
  cases read cs <;> rfl

theorem read_letter {c : Char} (hc : c ≠ 'u') {u : Nat} (hu : escape? c = some u) :
    read ('\\' :: c :: cs) = after [u] (read cs) := by
  rw [read, hu]
  · cases read cs <;> rfl
  · exact fun _ _ _ _ _ h => absurd h hc

theorem read_plain {c : Char} (h_quote : c ≠ '\x22') (h_escape : c ≠ '\\')
    (h_visible : 32 ≤ c.toNat) : read (c :: cs) = after [c.toNat] (read cs) := by
  rw [read]
  · rw [if_neg (by simpa using ⟨h_visible, h_escape⟩)]
    cases read cs <;> rfl
  · exact h_quote
  · exact fun _ _ _ _ _ h => absurd h h_escape
  · exact fun _ _ h => absurd h h_escape

/-- The letters of short escapes name what they stand for. -/
theorem escape?_of_shortEscape? {c letter : Char} (h : shortEscape? c = some letter) :
    letter ≠ 'u' ∧ escape? letter = some c.toNat ∧ c.toNat < 0x10000 := by
  unfold shortEscape? at h
  split_ifs at h with h_feed h_return h_tab h_back h_form
  all_goals obtain rfl := Option.some.inj h
  · exact ⟨by decide, by rw [h_feed]; decide⟩
  · exact ⟨by decide, by rw [h_return]; decide⟩
  · exact ⟨by decide, by rw [h_tab]; decide⟩
  · exact ⟨by decide, by rw [h_back]; decide⟩
  · exact ⟨by decide, by rw [h_form]; decide⟩

/-- **Escapes.** What is written for a character is read as its code units. -/
theorem read_escape (c : Char) : read (escape c ++ cs) = after (ofChar c) (read cs) := by
  have h_max : c.toNat < 0x110000 := by
    have : c.toNat < 0xD800 ∨ 0xDFFF < c.toNat ∧ c.toNat < 0x110000 := c.valid
    omega
  unfold escape
  split
  · next h_mark =>
    -- behind a backslash the two marks stand for themselves
    have h_units : ofChar c = [c.toNat] ∧ c ≠ 'u' ∧ escape? c = some c.toNat := by
      rcases Bool.or_eq_true_iff.mp h_mark with h | h
      all_goals
        obtain rfl := of_decide_eq_true h
        decide
    rw [h_units.1]
    exact read_letter cs h_units.2.1 h_units.2.2
  split
  · next h_mark h_ascii =>
    have h_range := Bool.and_eq_true_iff.mp h_ascii
    have h_units : ofChar c = [c.toNat] :=
      if_pos (Nat.lt_of_le_of_lt (of_decide_eq_true h_range.2) (by decide))
    rw [Bool.not_eq_true, Bool.or_eq_false_iff] at h_mark
    rw [h_units]
    exact read_plain cs (of_decide_eq_false h_mark.1) (of_decide_eq_false h_mark.2)
      (of_decide_eq_true h_range.1)
  split
  · next letter h_letter =>
    obtain ⟨h_u, h_unit, h_small⟩ := escape?_of_shortEscape? h_letter
    have h_units : ofChar c = [c.toNat] := if_pos h_small
    rw [h_units]
    exact read_letter cs h_u h_unit
  unfold ofChar
  split
  · next h_plane => exact read_escapeUnit cs h_plane
  · next h_plane =>
    -- each half is a unit of its own
    rw [List.append_assoc, read_escapeUnit _ (by omega), read_escapeUnit _ (by omega),
      ← after_append]
    rfl

/-- **Texts.** Up to the closing quote the units of the text are read. -/
theorem read_text (ds : List Char) :
    read (ds.flatMap escape ++ '\x22' :: cs) = some (ds.flatMap ofChar, cs) := by
  induction ds with
  | nil => rfl
  | cons d ds ih =>
    rw [List.flatMap_cons, List.append_assoc, read_escape, ih, List.flatMap_cons]
    rfl

end Read

/-- A character's units spell it, whatever follows. -/
theorem join_ofChar (c : Char) (us : List Nat) :
    join (ofChar c ++ us) = (join us).map (c :: ·) := by
  have h_valid : c.toNat < 0xD800 ∨ 0xDFFF < c.toNat ∧ c.toNat < 0x110000 := c.valid
  unfold ofChar
  split
  · -- no character has the number of a surrogate
    have h_high : isHigh c.toNat = false := by
      unfold isHigh
      simp only [Bool.and_eq_false_iff, decide_eq_false_iff_not]
      omega
    have h_low : isLow c.toNat = false := by
      unfold isLow
      simp only [Bool.and_eq_false_iff, decide_eq_false_iff_not]
      omega
    rw [List.singleton_append]
    cases us with
    | nil => simp [join, h_high, h_low]
    | cons v us => simp [join, h_high, h_low]
  · next h_plane =>
    have h_high : isHigh (0xD800 + (c.toNat - 0x10000) / 0x400) = true := by
      unfold isHigh
      simp only [Bool.and_eq_true, decide_eq_true_eq]
      omega
    have h_low : isLow (0xDC00 + (c.toNat - 0x10000) % 0x400) = true := by
      unfold isLow
      simp only [Bool.and_eq_true, decide_eq_true_eq]
      omega
    have h_number : 0x10000 + (0xD800 + (c.toNat - 0x10000) / 0x400 - 0xD800) * 0x400
        + (0xDC00 + (c.toNat - 0x10000) % 0x400 - 0xDC00) = c.toNat := by omega
    change join (_ :: _ :: us) = _
    rw [join, h_high, h_low, Bool.and_self, if_pos rfl, h_number, Char.ofNat_toNat]

theorem join_ofChars (cs : List Char) : join (cs.flatMap ofChar) = some cs := by
  induction cs with
  | nil => rfl
  | cons c cs ih =>
    rw [List.flatMap_cons, join_ofChar, ih]
    rfl

end Units

/-! ### Tokens -/

/-- The text is read as these tokens, whatever follows. Every step takes a character at least. -/
def Reads (cs : List Char) (ts : List Token) : Prop :=
  ∃ k ≤ cs.length, ∀ n rest, tokensWithin (n + k) (cs ++ rest) = ts ++ tokensWithin n rest

theorem Reads.append {cs ds : List Char} {ts us : List Token} (h : Reads cs ts)
    (h' : Reads ds us) : Reads (cs ++ ds) (ts ++ us) := by
  obtain ⟨k, hk, h_read⟩ := h
  obtain ⟨l, hl, h_read'⟩ := h'
  refine ⟨l + k, by rw [List.length_append]; omega, fun n rest => ?_⟩
  rw [List.append_assoc, ← Nat.add_assoc, h_read, h_read', List.append_assoc]

theorem Reads.list {cs : List Char} {ts : List Token} (h : Reads cs ts) : Token.list cs = ts := by
  obtain ⟨k, hk, h_read⟩ := h
  have h_end := h_read (cs.length - k) []
  rw [Nat.sub_add_cancel hk, List.append_nil] at h_end
  rw [Token.list, h_end]
  cases cs.length - k <;> exact List.append_nil ts

theorem reads_space : Reads [' '] [] := ⟨1, Nat.le_refl 1, fun _ _ => rfl⟩

theorem reads_mark {c : Char} {t : Token} (h_space : isSpace c = false)
    (h_mark : punctuation? c = some t) : Reads [c] [t] := by
  refine ⟨1, Nat.le_refl 1, fun n rest => ?_⟩
  rw [List.singleton_append, tokensWithin, h_space, h_mark]
  rfl

theorem reads_null : Reads ['n', 'u', 'l', 'l'] [.null] :=
  ⟨1, by decide, fun _ _ => rfl⟩

/-- Behind a quote the units are read up to the next one. -/
theorem tokensWithin_quote (n : Nat) {cs rest : List Char} {us : List Nat}
    (h_units : Units.read cs = some (us, rest)) : tokensWithin (n + 1) ('\x22' :: cs)
      = .text ((Units.join us).map String.ofList) :: tokensWithin n rest := by
  have h_space : isSpace '\x22' = false := rfl
  have h_mark : punctuation? '\x22' = none := rfl
  rw [tokensWithin, h_space, h_mark, h_units]
  rfl

/-- **A text in quotes** is read as the text. -/
theorem reads_printText (s : String) : Reads (printText s) [.text (some s)] := by
  refine ⟨1, Nat.succ_le_succ (Nat.zero_le _), fun n rest => ?_⟩
  unfold printText
  rw [List.cons_append, List.cons_append, List.append_assoc, List.singleton_append,
    tokensWithin_quote n (Units.read_text _ _), Units.join_ofChars, Option.map_some,
    String.ofList_toList]
  rfl

/-- The tokens of the texts behind the first in a list. -/
def tokensOfMore (ss : List String) : List Token :=
  ss.flatMap fun s => [.comma, .text (some s)]

def tokensOfTexts : List String → List Token
  | [] => [.openBracket, .closeBracket]
  | s :: ss => .openBracket :: .text (some s) :: tokensOfMore ss ++ [.closeBracket]

def tokensOfList : Option (List String) → List Token
  | some ss => tokensOfTexts ss
  | none => [.null]

theorem reads_printMore (ss : List String) : Reads (printMore ss) (tokensOfMore ss) := by
  induction ss with
  | nil => exact ⟨0, Nat.le_refl 0, fun _ _ => rfl⟩
  | cons s ss ih =>
    have h_comma : Reads [','] [.comma] := reads_mark rfl rfl
    exact ((h_comma.append reads_space).append (reads_printText s)).append ih

theorem reads_printTexts (ss : List String) : Reads (printTexts ss) (tokensOfTexts ss) := by
  have h_open : Reads ['['] [.openBracket] := reads_mark rfl rfl
  have h_close : Reads [']'] [.closeBracket] := reads_mark rfl rfl
  cases ss with
  | nil => exact h_open.append h_close
  | cons s ss =>
    exact ((h_open.append (reads_printText s)).append (reads_printMore ss)).append h_close

theorem reads_printList (list : Option (List String)) :
    Reads (printList list) (tokensOfList list) := by
  cases list with
  | none => exact reads_null
  | some ss => exact reads_printTexts ss

/-- The tokens of the configuration with these lists. -/
def tokensOfConfig (enabled disabled : Option (List String)) : List Token :=
  .openBrace :: .text (some "enabled") :: .colon :: tokensOfList enabled ++
    (.comma :: .text (some "disabled") :: .colon :: tokensOfList disabled ++ [.closeBrace])

/-- **The text of a configuration** is read as its tokens. -/
theorem reads_printConfig (c : RunConfig) :
    Reads (printConfig c) (tokensOfConfig c.enabled c.disabled) := by
  have h_open : Reads ['\x7b'] [.openBrace] := reads_mark rfl rfl
  have h_close : Reads ['\x7d'] [.closeBrace] := reads_mark rfl rfl
  have h_colon : Reads [':', ' '] [.colon] :=
    Reads.append (reads_mark rfl rfl) reads_space
  have h_comma : Reads [',', ' '] [.comma] :=
    Reads.append (reads_mark rfl rfl) reads_space
  have h_enabled := ((h_open.append (reads_printText "enabled")).append h_colon).append
    (reads_printList c.enabled)
  have h_disabled := ((h_comma.append (reads_printText "disabled")).append h_colon).append
    ((reads_printList c.disabled).append h_close)
  have h_config := h_enabled.append h_disabled
  simp only [tokensOfConfig, printConfig, List.append_assoc, List.cons_append, List.nil_append]
    at h_config ⊢
  exact h_config

/-! ### Data -/

namespace Machine

variable (stack : List Frame) (ts : List Token)

theorem run_cons (m : Machine) (t : Token) : run m (t :: ts) = m.step t >>= fun m => m.run ts :=
  List.foldlM_cons

/-- The rest of a list of texts. -/
theorem run_tokensOfMore (items : List Data) (v : Data) (ss : List String) :
    run ⟨.array items :: stack, .after v⟩ (tokensOfMore ss ++ .closeBracket :: ts)
      = run ⟨stack, .after (.sequence ((v :: items).reverse ++ ss.map .text))⟩ ts := by
  induction ss generalizing items v with
  | nil =>
    rw [List.map_nil, List.append_nil]
    exact run_cons ts _ _
  | cons s ss ih =>
    -- after comma and text the member before stands among the items
    have h_step : run ⟨.array items :: stack, .after v⟩
        (tokensOfMore (s :: ss) ++ .closeBracket :: ts)
        = run ⟨.array (v :: items) :: stack, .after (.text s)⟩
          (tokensOfMore ss ++ .closeBracket :: ts) := by
      change run _ (.comma :: .text (some s) :: (tokensOfMore ss ++ .closeBracket :: ts)) = _
      rw [run_cons]
      change run ⟨.array (v :: items) :: stack, .value⟩ (.text (some s) :: _) = _
      rw [run_cons]
      rfl
    rw [h_step, ih, List.reverse_cons, List.append_assoc, List.singleton_append, List.map_cons]

end Machine

/-- The data that a list stands for. -/
def dataOfList : Option (List String) → Data
  | some ss => .sequence (ss.map .text)
  | none => .null

/-- **A list** is read as its texts. -/
theorem Machine.run_tokensOfList (stack : List Frame) (ts : List Token)
    (list : Option (List String)) :
    run ⟨stack, .value⟩ (tokensOfList list ++ ts) = run ⟨stack, .after (dataOfList list)⟩ ts := by
  cases list with
  | none => exact run_cons ts _ _
  | some ss =>
    cases ss with
    | nil => rfl
    | cons s ss =>
      have h_first : run ⟨stack, .value⟩ (tokensOfTexts (s :: ss) ++ ts)
          = run ⟨.array [] :: stack, .after (.text s)⟩
            (tokensOfMore ss ++ .closeBracket :: ts) := by
        rw [tokensOfTexts, List.cons_append, List.cons_append, List.append_assoc, List.cons_append,
          List.singleton_append, run_cons]
        change run ⟨.array [] :: stack, .firstItem⟩ (.text (some s) :: _) = _
        rw [run_cons]
        rfl
      exact h_first.trans (run_tokensOfMore stack ts [] (.text s) ss)

/-- The entries of a configuration with these lists. -/
def entriesOfConfig (enabled disabled : Option (List String)) : List (Data × Data) :=
  [(.text "enabled", dataOfList enabled), (.text "disabled", dataOfList disabled)]

/-- **The text of a configuration** says its lists, and nothing else. -/
theorem parse_printConfig (c : RunConfig) :
    parse (printConfig c) = .ok (.mapping (entriesOfConfig c.enabled c.disabled)) := by
  have h_run : Machine.run {} (tokensOfConfig c.enabled c.disabled)
      = .ok ⟨[], .after (.mapping (entriesOfConfig c.enabled c.disabled))⟩ := by
    unfold tokensOfConfig
    change Machine.run ⟨[.object [] (.text "enabled")], .value⟩ (tokensOfList c.enabled ++ _) = _
    rw [Machine.run_tokensOfList]
    change Machine.run ⟨[.object [(.text "enabled", dataOfList c.enabled)] (.text "disabled")],
      .value⟩ (tokensOfList c.disabled ++ _) = _
    rw [Machine.run_tokensOfList]
    rfl
  rw [parse, (reads_printConfig c).list, h_run]
  rfl

/-! ### Characters -/

/-- There are no control characters of ASCII in the text. -/
def Visible (cs : List Char) : Prop := ∀ c ∈ cs, 32 ≤ c.toNat

theorem visible_of_all {cs : List Char} (h : cs.all (fun c => 32 ≤ c.toNat) = true) : Visible cs :=
  fun c hc => of_decide_eq_true (List.all_eq_true.mp h c hc)

theorem Visible.append {cs ds : List Char} (h : Visible cs) (h' : Visible ds) :
    Visible (cs ++ ds) :=
  List.forall_mem_append.mpr ⟨h, h'⟩

theorem Visible.flatMap {α : Type} {xs : List α} {f : α → List Char}
    (h : ∀ x, Visible (f x)) : Visible (xs.flatMap f) := by
  intro c hc
  obtain ⟨x, -, hx⟩ := List.mem_flatMap.mp hc
  exact h x c hx

theorem visible_escapeUnit (u : Nat) : Visible (escapeUnit u) := by
  have h_digits : ∀ d < 16, 32 ≤ (Text.hexDigit d).toNat := by decide
  have h_digit : ∀ n, 32 ≤ (Text.hexDigit (n % 16)).toNat :=
    fun n => h_digits _ (Nat.mod_lt n (by decide))
  unfold escapeUnit
  rw [hexDigits_four]
  refine List.forall_mem_cons.mpr ⟨by decide, List.forall_mem_cons.mpr ⟨by decide, ?_⟩⟩
  intro c hc
  simp only [List.mem_cons, List.not_mem_nil, or_false] at hc
  rcases hc with rfl | rfl | rfl | rfl <;> exact h_digit _

theorem visible_escape (c : Char) : Visible (escape c) := by
  unfold escape
  split
  · next h_mark =>
    refine List.forall_mem_cons.mpr ⟨by decide, List.forall_mem_singleton.mpr ?_⟩
    rcases Bool.or_eq_true_iff.mp h_mark with h | h
    all_goals
      rw [of_decide_eq_true h]
      decide
  split
  · next h_ascii =>
    exact List.forall_mem_singleton.mpr (of_decide_eq_true (Bool.and_eq_true_iff.mp h_ascii).1)
  split
  · next letter h_letter =>
    refine List.forall_mem_cons.mpr ⟨by decide, List.forall_mem_singleton.mpr ?_⟩
    unfold shortEscape? at h_letter
    split_ifs at h_letter
    all_goals
      obtain rfl := Option.some.inj h_letter
      decide
  split
  · exact visible_escapeUnit _
  · exact (visible_escapeUnit _).append (visible_escapeUnit _)

theorem visible_printText (s : String) : Visible (printText s) := by
  have h_quote : Visible ['\x22'] := visible_of_all rfl
  exact (h_quote.append (.flatMap visible_escape)).append h_quote

theorem visible_printList (list : Option (List String)) : Visible (printList list) := by
  cases list with
  | none => exact visible_of_all rfl
  | some ss =>
    cases ss with
    | nil => exact visible_of_all rfl
    | cons s ss =>
      have h_open : Visible ['['] := visible_of_all rfl
      have h_comma : Visible [',', ' '] := visible_of_all rfl
      exact ((h_open.append (visible_printText s)).append
        (.flatMap fun s => h_comma.append (visible_printText s))).append (visible_of_all rfl)

theorem visible_printConfig (c : RunConfig) : Visible (printConfig c) := by
  have h_open : Visible ['\x7b'] := visible_of_all rfl
  have h_colon : Visible [':', ' '] := visible_of_all rfl
  have h_comma : Visible [',', ' '] := visible_of_all rfl
  have h_close : Visible ['\x7d'] := visible_of_all rfl
  have h_enabled := ((h_open.append (visible_printText "enabled")).append h_colon).append
    (visible_printList c.enabled)
  exact ((((h_enabled.append h_comma).append (visible_printText "disabled")).append h_colon).append
    (visible_printList c.disabled)).append h_close

theorem unifyBreaks_printConfig (c : RunConfig) : unifyBreaks (printConfig c) = printConfig c :=
  unifyBreaks_of_not_mem fun h => absurd (visible_printConfig c _ h) (by decide)

end Json

/-! ### The configuration -/

/-- The lists that were written describe the configuration. -/
theorem describes_entriesOfConfig (enabled : Option (List String)) (disabled : List String) :
    (Data.mapping (Json.entriesOfConfig enabled (some disabled))).Describes
      { enabled, disabled := some disabled } := by
  refine .mapping (Data.under_iff.mpr rfl) ?_ (Data.under_iff.mpr rfl) (.list disabled)
  cases enabled with
  | none => exact .null
  | some ss => exact .list ss

/-- **Round trip.** A file that holds the JSON text of a configuration with a list of disabled names
says data as JSON and is loaded as the configuration, with a note of it. What is read as YAML does
not matter, as the text is not tried as anything else. So it is the same handlers that take part. -/
theorem load_printConfig {r : Readers} (h_reader : r.json = Json.parse)
    (h_shape : r.shape? = Data.config?) {around : Surroundings} {path : Option String}
    {c : RunConfig} (h_list : c.disabled.isSome)
    (h_found : around.found? path = some (.file (Utf8.encode (Json.printConfig c)))) :
    (∃ d, Json.parse (unifyBreaks (Json.printConfig c)) = .ok d)
    ∧ Loads r around path c [.info]
    ∧ ∀ l, r.load around path = .ok l → ∀ name, l.1.isEnabled name = c.isEnabled name := by
  obtain ⟨enabled, disabled?⟩ := c
  obtain ⟨disabled, rfl⟩ := Option.isSome_iff_exists.mp h_list
  have h_json := Json.parse_printConfig { enabled, disabled := some disabled }
  rw [← Json.unifyBreaks_printConfig] at h_json
  have h_data : r.Says (Utf8.encode (Json.printConfig { enabled, disabled := some disabled }))
      (.mapping (Json.entriesOfConfig enabled (some disabled))) :=
    ⟨_, rfl, by rw [Readers.parse, h_reader, h_json]⟩
  have h_config := Data.config?_of_describes (describes_entriesOfConfig enabled disabled)
  have h_ne : Data.mapping (Json.entriesOfConfig enabled (some disabled)) ≠ .null := by
    intro h_null
    cases h_null
  have h_accept := accept_of_ne_null h_shape h_ne
  rw [h_config, Option.elim_some] at h_accept
  refine ⟨⟨_, h_json⟩, loads_of_accept h_found h_data h_accept, fun l hl name => ?_⟩
  rw [load_of_data h_found h_data, h_accept] at hl
  obtain rfl := Except.ok.inj hl
  rfl

/-- The names need escapes of all kinds. -/
def escapedConfig : RunConfig where
  enabled := some ["x-cms", "\"\\", "\r\n\t", "\x7f", "é", "😀", "x-cms"]
  disabled := some [""]

theorem load_printConfig_escaped :
    escapedConfig.disabled.isSome
    ∧ (homeOf (Utf8.encode (Json.printConfig escapedConfig))).found? none
      = some (.file (Utf8.encode (Json.printConfig escapedConfig)))
    ∧ Loads Readers.own (homeOf (Utf8.encode (Json.printConfig escapedConfig))) none escapedConfig
      [.info] := by
  have h_found : (homeOf (Utf8.encode (Json.printConfig escapedConfig))).found? none
      = some (.file (Utf8.encode (Json.printConfig escapedConfig))) := by decide +kernel
  exact ⟨rfl, h_found, (load_printConfig (r := Readers.own) rfl rfl rfl h_found).2.1⟩

end SchemaNaming.Config
