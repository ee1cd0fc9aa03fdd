import SchemaNaming.Config.Load
import SchemaNaming.Proofs.Config.Utf8
import SchemaNaming.Proofs.Config.Yaml.Typing

/-!
# When loading a configuration returns

Loading returns if and only if what the surroundings name can be read: the lookup runs into no name
that is too long and no directory that is closed, and a file that it finds holds the encoding of a
text that is read without a fault (`Readers.Readable`). It then gives the default configuration
unless the file holds data that are one. That is so whatever the readers are.

How readers fail is what they are documented to do (`Readers.Documented`). If these do no more than
that, it can be seen in a text, for the most part, whether it is read without a fault
(`Readers.Harmless`): it is short enough not to go too deep, no integer is too long and, if it is
not JSON, it has no tags, no far escapes and no plain scalar that is not of the type whose form it
has. The readers of this library are such readers (`Readers.own_documented`).

* `Readers.Harmless.faultless` — a harmless text is read without a fault;
* `Readers.read_returns_iff`, `Readers.default_of_read` — of a file;
* `Readers.load_of_found` — the ways in which the lookup can end, for all that is said about
  loading;
* `load_returns_iff` — when loading returns, and what.
-/

namespace SchemaNaming.Config

namespace Surroundings

/-- What the path leads to, if there is one. -/
def found? (around : Surroundings) (path : Option String) : Option Found :=
  (around.path? path).map (around.files.find around.workingDirectory)

end Surroundings

namespace Readers

/-! ### Texts -/

/-- What the readers are documented to fail with. Anything deeper than a reader can follow is a
fault, and as a text takes a character for every level, one that is too deep has more than `room`
of them. -/
structure Documented (r : Readers) (room : Nat) : Prop where
  /-- In JSON nothing else is a fault but an integer with too many digits. -/
  json : ∀ cs f, r.json cs = .error (.fault f) →
    (∃ n, f = .tooManyDigits n ∧ Integer.digitLimit < n ∧ HasDigits n cs)
      ∨ (f = .tooDeep ∧ room < cs.length)
  /-- In YAML there may be a tag, which can ask for anything, or the reason stands in the text, or a
  plain scalar does not fit its form. -/
  yaml : ∀ cs f, r.yaml cs = .error (.fault f) →
    '!' ∈ cs ∨ Yaml.Accounts cs (.fault f)
      ∨ (∃ s, .scalar s true ∈ Yaml.Token.stream cs ∧ s.Misfits f)
      ∨ (f = .tooDeep ∧ room < cs.length)

/-- The readers of this library do not fail on depth, except where a tag leads around in a
circle. -/
theorem own_documented (room : Nat) : own.Documented room where
  json _ _ h := .inl (Json.fault_of_parse h)
  yaml _ _ h := (Yaml.fault_of_parse h).imp_right fun h_reason => h_reason.imp_right .inl

/-- A text that is read without a fault: it gives data or is malformed. -/
def Faultless (r : Readers) (cs : List Char) : Prop := ∀ f, r.parse cs ≠ .error (.fault f)

/-- A text in which nothing can be at fault. What counts in JSON are the digits alone. -/
structure Harmless (r : Readers) (room : Nat) (cs : List Char) : Prop where
  short : cs.length ≤ room
  digits : ∀ n, HasDigits n cs → n ≤ Integer.digitLimit
  marks : r.json cs = .error .malformed → '!' ∉ cs
  escapes : r.json cs = .error .malformed → ¬ Yaml.HasFarEscape cs
  scalars : r.json cs = .error .malformed →
    ∀ s f, .scalar s true ∈ Yaml.Token.stream cs → ¬ s.Misfits f

section Harmless

variable {r : Readers} {room : Nat} {cs : List Char}

theorem Harmless.not_accounts (h : r.Harmless room cs) (h_json : r.json cs = .error .malformed)
    (f : ReadFault) : ¬ Yaml.Accounts cs (.fault f) := by
  intro h_accounts
  cases f with
  | tooManyDigits n => exact absurd (h.digits n h_accounts.2) (Nat.not_le.mpr h_accounts.1)
  | badCodePoint => exact h.escapes h_json h_accounts
  | hugeCodePoint => exact h.escapes h_json h_accounts
  | _ => exact h_accounts

theorem Harmless.faultless (hr : r.Documented room) (h : r.Harmless room cs) : r.Faultless cs := by
  intro f h_parse
  have h_deep : ¬ room < cs.length := Nat.not_lt.mpr h.short
  unfold parse at h_parse
  split at h_parse
  · next h_json =>
    rcases hr.yaml cs f h_parse with h_mark | h_accounts | ⟨s, h_mem, h_misfits⟩ | ⟨-, h_long⟩
    · exact h.marks h_json h_mark
    · exact h.not_accounts h_json f h_accounts
    · exact h.scalars h_json s f h_mem h_misfits
    · exact h_deep h_long
  · rcases hr.json cs f h_parse with ⟨n, -, h_long, h_digits⟩ | ⟨-, h_long⟩
    · exact absurd (h.digits n h_digits) (Nat.not_le.mpr h_long)
    · exact h_deep h_long

end Harmless

/-! ### Files -/

variable (r : Readers)

theorem read_encode (cs : List Char) :
    r.read (Utf8.encode cs) = match r.parse (unifyBreaks cs) with
      | .ok d => .ok (r.accept d)
      | .error .malformed => .ok ({}, [.configUnparsable])
      | .error (.fault f) => .error f := by
  unfold read
  rw [Utf8.decode_eq_ok_iff.mpr rfl]
  rfl

variable {r}

theorem encode_of_read {bytes : List UInt8} {l : Loaded} (h : r.read bytes = .ok l) :
    ∃ cs, bytes = Utf8.encode cs := by
  unfold read at h
  cases h_decode : Utf8.decode bytes with
  | error f =>
    rw [h_decode] at h
    cases h
  | ok cs => exact ⟨cs, Utf8.decode_eq_ok_iff.mp h_decode⟩

/-- Reading returns if and only if the bytes are the encoding of a text without a fault. -/
theorem read_returns_iff (bytes : List UInt8) :
    (∃ l, r.read bytes = .ok l)
      ↔ ∃ cs, bytes = Utf8.encode cs ∧ r.Faultless (unifyBreaks cs) := by
  constructor
  · rintro ⟨l, h⟩
    obtain ⟨cs, rfl⟩ := encode_of_read h
    refine ⟨cs, rfl, fun f h_parse => ?_⟩
    rw [read_encode, h_parse] at h
    cases h
  · rintro ⟨cs, rfl, h⟩
    rw [read_encode]
    split
    · exact ⟨_, rfl⟩
    · exact ⟨_, rfl⟩
    · next f h_parse => exact absurd h_parse (h f)

theorem accept_default (d : Data) :
    (r.accept d).1 = {} ∨ r.shape? d = some (r.accept d).1 := by
  unfold accept
  split
  · exact .inl rfl
  · split
    · next h => exact .inr h
    · exact .inl rfl

/-- The bytes hold a text that says `d`. -/
def Says (r : Readers) (bytes : List UInt8) (d : Data) : Prop :=
  ∃ cs, bytes = Utf8.encode cs ∧ r.parse (unifyBreaks cs) = .ok d

/-- Only data that are a configuration take the default's place. -/
theorem default_of_read {bytes : List UInt8} {l : Loaded} (h : r.read bytes = .ok l) :
    l.1 = {} ∨ ∃ d, r.Says bytes d ∧ r.shape? d = some l.1 := by
  obtain ⟨cs, rfl⟩ := encode_of_read h
  rw [read_encode] at h
  split at h
  · next d h_parse =>
    obtain rfl := Except.ok.inj h
    exact (accept_default d).imp_right fun h_shape => ⟨d, ⟨cs, rfl, h_parse⟩, h_shape⟩
  · obtain rfl := Except.ok.inj h
    exact .inl rfl
  · cases h

/-! ### Surroundings -/

/-- What the surroundings name can be read: no name is too long, no directory on the way is closed,
and a file holds the encoding of a text without a fault. -/
structure Readable (r : Readers) (around : Surroundings) (path : Option String) : Prop where
  name : around.found? path ≠ some .tooLong
  way : around.found? path ≠ some .denied
  text : ∀ bytes, around.found? path = some (.file bytes) →
    ∃ cs, bytes = Utf8.encode cs ∧ r.Faultless (unifyBreaks cs)

variable {around : Surroundings} {path : Option String}

theorem readable_of_harmless {room : Nat} {cs : List Char} (hr : r.Documented room)
    (h_found : around.found? path = some (.file (Utf8.encode cs)))
    (h_text : r.Harmless room (unifyBreaks cs)) : r.Readable around path := by
  refine ⟨?_, ?_, fun bytes h_eq => ⟨cs, ?_, h_text.faultless hr⟩⟩
  · rw [h_found]
    exact nofun
  · rw [h_found]
    exact nofun
  · rw [h_found] at h_eq
    cases h_eq
    rfl

/-- What loading comes to, by what the path leads to. -/
theorem load_of_found (r : Readers) (around : Surroundings) (path : Option String) :
    match around.found? path with
    | some (.file bytes) => r.load around path = r.read bytes
    | some .tooLong | some .denied => ∃ f, r.load around path = .error f
    | _ => ∃ notices, r.load around path = .ok ({}, notices) := by
  unfold load Surroundings.found?
  cases around.path? path with
  | none => exact ⟨[], rfl⟩
  | some p =>
    rw [Option.map_some]
    dsimp only
    cases around.files.find around.workingDirectory p with
    | missing => exact ⟨[], rfl⟩
    | tooLong => exact ⟨.nameTooLong p.toString, rfl⟩
    | denied => exact ⟨.permissionDenied p.toString, rfl⟩
    | directory | locked => exact ⟨[.configUnreadable], rfl⟩
    | file bytes => rfl

theorem load_returns : (∃ l, r.load around path = .ok l) ↔ r.Readable around path := by
  have h_load := load_of_found r around path
  -- a lookup that fails is the one thing in the way, apart from what stands in a file
  have h_fails : (∃ f, r.load around path = .error f) → ¬ ∃ l, r.load around path = .ok l := by
    rintro ⟨f, h_error⟩ ⟨l, h_ok⟩
    rw [h_error] at h_ok
    cases h_ok
  split at h_load
  · next bytes h_found =>
    rw [h_load, read_returns_iff]
    refine ⟨fun h_text => ⟨?_, ?_, fun found h_eq => ?_⟩, fun h => h.text bytes h_found⟩
    · rw [h_found]
      exact nofun
    · rw [h_found]
      exact nofun
    · rw [h_found] at h_eq
      cases h_eq
      exact h_text
  · next h_found => exact iff_of_false (h_fails h_load) fun h => h.name h_found
  · next h_found => exact iff_of_false (h_fails h_load) fun h => h.way h_found
  · next h_file h_long h_denied =>
    obtain ⟨notices, h_load⟩ := h_load
    exact iff_of_true ⟨_, h_load⟩
      ⟨h_long, h_denied, fun bytes h_found => absurd h_found (h_file bytes)⟩

theorem default_of_load {l : Loaded} (h : r.load around path = .ok l) :
    l.1 = {} ∨ ∃ bytes d,
      around.found? path = some (.file bytes) ∧ r.Says bytes d ∧ r.shape? d = some l.1 := by
  have h_load := load_of_found r around path
  split at h_load
  · next bytes h_found =>
    rw [h_load] at h
    exact (default_of_read h).imp_right fun ⟨d, h_d⟩ => ⟨bytes, d, h_found, h_d⟩
  all_goals
    obtain ⟨_, h_load⟩ := h_load
    rw [h_load] at h
  · cases h
  · cases h
  · obtain rfl := Except.ok.inj h
    exact .inl rfl

end Readers

/-- **Loading a configuration.** With any readers it returns if and only if what the surroundings
name can be read, which a file with a harmless text always can if the readers fail as they are
documented to. What it returns is the default configuration, unless a file was found that holds data
which have the shape of the configuration. -/
theorem load_returns_iff (r : Readers) (around : Surroundings) (path : Option String) :
    ((∃ l, r.load around path = .ok l) ↔ r.Readable around path)
    ∧ (∀ room cs, r.Documented room → around.found? path = some (.file (Utf8.encode cs)) →
        r.Harmless room (unifyBreaks cs) → ∃ l, r.load around path = .ok l)
    ∧ ∀ l, r.load around path = .ok l → l.1 = {} ∨ ∃ bytes d,
        around.found? path = some (.file bytes) ∧ r.Says bytes d ∧ r.shape? d = some l.1 := by
  refine ⟨Readers.load_returns, fun room cs hr h_found h_text => ?_, fun _ =>
    Readers.default_of_load⟩
  exact Readers.load_returns.mpr (Readers.readable_of_harmless hr h_found h_text)

/-- A root with one file in it, which is what the environment names. -/
def homeOf (bytes : List UInt8) : Surroundings where
  files := .directory [("extensions.yaml", .file bytes)]
  workingDirectory := []
  setting := some "extensions.yaml"

/-- A plain scalar can only be a text. -/
def isTextual : Yaml.Token → Bool
  | .scalar s true => Yaml.Tag.ofPlain s.chars = Yaml.Tag.str
  | _ => true

/-- A bracket is missing. -/
def brokenText : List Char := "disabled: [x-cms\n".toList

theorem brokenText_harmless : Readers.own.Harmless 100 (unifyBreaks brokenText) where
  short := by decide +kernel
  digits _ h := h.le_length.trans (by decide +kernel)
  marks _ := by decide +kernel
  escapes _ h := by
    obtain ⟨ds, h_escape, -⟩ := h
    exact absurd (h_escape.subset List.mem_cons_self) (by decide +kernel)
  scalars _ s f h := by
    have h_texts : (Yaml.Token.stream (unifyBreaks brokenText)).all isTextual = true := by
      decide +kernel
    exact Yaml.Scalar.not_misfits_of_str (of_decide_eq_true (List.all_eq_true.mp h_texts _ h))

theorem load_returns_iff_broken :
    Readers.own.Documented 100
    ∧ (homeOf (Utf8.encode brokenText)).found? none = some (.file (Utf8.encode brokenText))
    ∧ Readers.own.Harmless 100 (unifyBreaks brokenText)
    ∧ ∃ l, load (homeOf (Utf8.encode brokenText)) none = .ok l := by
  have h_found : (homeOf (Utf8.encode brokenText)).found? none
      = some (.file (Utf8.encode brokenText)) := by decide +kernel
  have h_load := load_returns_iff Readers.own (homeOf (Utf8.encode brokenText)) none
  exact ⟨Readers.own_documented 100, h_found, brokenText_harmless,
    h_load.2.1 100 brokenText (Readers.own_documented 100) h_found brokenText_harmless⟩

theorem load_raises_undecodable :
    ¬ ∀ around path, around.found? path ≠ some .tooLong → ∃ r, load around path = .ok r := by
  intro h
  obtain ⟨r, hr⟩ := h (homeOf [0xff]) (some "/extensions.yaml") (by decide +kernel)
  have h_raises : (load (homeOf [0xff]) (some "/extensions.yaml")).toOption = none := by
    decide +kernel
  rw [hr] at h_raises
  cases h_raises

/-- A text whose scalar is found by going around in a circle. -/
example : load (homeOf (Utf8.encode "&a !!str \x7b=: *a\x7d".toList)) none = .error .tooDeep := by
  decide +kernel

/-- A date in the thirteenth month. -/
example : (load (homeOf (Utf8.encode "enabled: 2024-13-01\n".toList)) none).toOption = none := by
  decide +kernel

end SchemaNaming.Config
