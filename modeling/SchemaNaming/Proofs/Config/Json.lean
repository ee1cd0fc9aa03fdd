import Mathlib.Data.List.Infix
import Mathlib.Data.List.TakeWhile
import SchemaNaming.Config.Json.Parse

/-!
# Faults of JSON texts

A text that is read as JSON gives data, or it is malformed, or it holds an integer with more digits
than are read. The last is the only fault that gets to the caller (`Json.fault_of_parse`), and then
that many digits stand in the text in a row (`HasDigits`).
-/

namespace SchemaNaming.Config

/-- So many decimal digits stand in the text in a row. -/
def HasDigits (n : Nat) (cs : List Char) : Prop :=
  ∃ ds, ds <:+: cs ∧ ds.length = n ∧ ∀ d ∈ ds, d.isDigit = true

theorem HasDigits.mono {n : Nat} {cs ds : List Char} (h : HasDigits n cs) (h_part : cs <:+: ds) :
    HasDigits n ds := by
  obtain ⟨run, h_run, h_digits⟩ := h
  exact ⟨run, h_run.trans h_part, h_digits⟩

theorem HasDigits.le_length {n : Nat} {cs : List Char} (h : HasDigits n cs) : n ≤ cs.length := by
  obtain ⟨run, h_run, rfl, -⟩ := h
  exact h_run.length_le

theorem hasDigits_takeWhile (cs : List Char) :
    HasDigits (cs.takeWhile Char.isDigit).length cs :=
  ⟨_, (List.takeWhile_prefix _).isInfix, rfl, fun _ hd => List.mem_takeWhile_imp hd⟩

namespace Json

/-! ### Tokens -/

theorem suffix_of_read {cs rest : List Char} {us : List Nat}
    (h : Units.read cs = some (us, rest)) : rest <:+ cs := by
  fun_induction Units.read cs generalizing us rest with
  | case1 cs =>
    obtain ⟨-, rfl⟩ := Prod.mk.inj (Option.some.inj h)
    exact List.suffix_cons _ _
  | case2 a b c d cs u us' rest' h_read _ ih =>
    obtain ⟨-, rfl⟩ := Prod.mk.inj (Option.some.inj h)
    exact (ih h_read).trans (List.suffix_append ['\\', 'u', a, b, c, d] cs)
  | case4 c cs _ u us' rest' h_read _ ih =>
    obtain ⟨-, rfl⟩ := Prod.mk.inj (Option.some.inj h)
    exact (ih h_read).trans (List.suffix_append ['\\', c] cs)
  | case7 c cs _ _ _ _ us' rest' h_read ih =>
    obtain ⟨-, rfl⟩ := Prod.mk.inj (Option.some.inj h)
    exact (ih h_read).trans (List.suffix_cons c cs)
  | case3 | case5 | case6 | case8 | case9 => cases h

theorem suffix_of_afterWord {word : String} {cs rest : List Char}
    (h : afterWord? word cs = some rest) : rest <:+ cs := by
  unfold afterWord? at h
  split at h
  · obtain rfl := Option.some.inj h
    exact List.drop_suffix _ _
  · cases h

theorem suffix_afterFraction (cs : List Char) : (afterFraction cs).2 <:+ cs := by
  unfold afterFraction
  split
  · split
    · exact (List.dropWhile_suffix _).trans (List.suffix_append ['.', _] _)
    · exact List.suffix_refl _
  · exact List.suffix_refl _

theorem suffix_afterExponent (cs : List Char) : (afterExponent cs).2 <:+ cs := by
  unfold afterExponent
  split
  · next e more =>
    split
    · extract_lets ds
      have h_more : more <:+ e :: more := List.suffix_cons e more
      -- a sign in front of the digits is left out
      have h_ds : ds <:+ more := by
        dsimp only [ds]
        split
        · split
          · exact List.suffix_cons _ _
          · exact List.suffix_refl _
        · exact List.suffix_refl _
      split
      · exact (List.dropWhile_suffix _).trans (h_ds.trans h_more)
      · exact List.suffix_refl _
    · exact List.suffix_refl _
  · exact List.suffix_refl _

/-- A token behind which `rest` is left of the text `cs`. -/
structure Leaves (cs : List Char) (t : Token) (rest : List Char) : Prop where
  suffix : rest <:+ cs
  /-- An overlong number has its digits in a row. -/
  overlong : ∀ n, t = .overlong n → Integer.digitLimit < n ∧ HasDigits n cs

theorem Leaves.mono {cs ds rest : List Char} {t : Token} (h : Leaves cs t rest)
    (h_suffix : cs <:+ ds) : Leaves ds t rest where
  suffix := h.suffix.trans h_suffix
  overlong n hn := (h.overlong n hn).imp id fun h_digits => h_digits.mono h_suffix.isInfix

theorem leaves_word {word : String} {cs rest : List Char} {t : Token}
    (h : afterWord? word cs = some rest) (ht : ∀ n, t ≠ .overlong n) : Leaves cs t rest :=
  ⟨suffix_of_afterWord h, fun n hn => absurd hn (ht n)⟩

theorem leaves_scanDigits (cs : List Char) : Leaves cs (scanDigits cs).1 (scanDigits cs).2 := by
  unfold scanDigits
  extract_lets whole
  -- the whole part is a run of digits, if only of one
  have h_whole : HasDigits whole.length cs := by
    dsimp only [whole]
    split
    · exact ⟨['0'], (List.prefix_append ['0'] _).isInfix, rfl, List.forall_mem_singleton.mpr rfl⟩
    · exact hasDigits_takeWhile cs
  have h_fraction := suffix_afterFraction (cs.drop whole.length)
  rcases h_after : afterFraction (cs.drop whole.length) with ⟨fraction, rest⟩
  rw [h_after] at h_fraction
  have h_exponent := suffix_afterExponent rest
  have h_rest := h_exponent.trans (h_fraction.trans (List.drop_suffix whole.length cs))
  dsimp only
  split
  · next h_long =>
    refine ⟨h_rest, fun n hn => ?_⟩
    obtain rfl : whole.length = n := Token.overlong.inj hn
    exact ⟨of_decide_eq_true (Bool.and_eq_true_iff.mp h_long).2, h_whole⟩
  · exact ⟨h_rest, fun _ => nofun⟩

theorem leaves_scanNumber {cs rest : List Char} {t : Token}
    (h : scanNumber? cs = some (t, rest)) : Leaves cs t rest := by
  have h_digits : ∀ {ds : List Char}, some (scanDigits ds) = some (t, rest) → Leaves ds t rest :=
    fun {ds} h_eq => by
      have h_leaves := leaves_scanDigits ds
      rwa [Option.some.inj h_eq] at h_leaves
  have h_word : ∀ {ds : List Char} {found : Option (List Char)},
      (∀ rest, found = some rest → rest <:+ ds) →
      found.map (fun rest => (Token.number, rest)) = some (t, rest) → Leaves ds t rest := by
    intro ds found h_found h_eq
    obtain ⟨rest', h_some, h_pair⟩ := Option.map_eq_some_iff.mp h_eq
    obtain ⟨rfl, rfl⟩ := Prod.mk.inj h_pair
    exact ⟨h_found _ h_some, fun _ => nofun⟩
  unfold scanNumber? at h
  split at h
  · next more =>
    have h_more : more <:+ '-' :: more := List.suffix_cons _ _
    split at h
    · exact (h_digits h).mono h_more
    · exact (h_word (fun _ => suffix_of_afterWord) h).mono h_more
  · split at h
    · exact h_digits h
    · refine h_word (fun rest h_or => ?_) h
      rcases Option.or_eq_some_iff.mp h_or with h_nan | ⟨-, h_infinity⟩
      · exact suffix_of_afterWord h_nan
      · exact suffix_of_afterWord h_infinity

theorem leaves_scanWord {cs rest : List Char} {t : Token}
    (h : scanWord? cs = some (t, rest)) : Leaves cs t rest := by
  -- a word, or else the next one, or a number in the end
  have h_word : ∀ {word : String} {u : Token} {others : Option (Token × List Char)},
      (∀ n, u ≠ .overlong n) → (others = some (t, rest) → Leaves cs t rest) →
      ((afterWord? word cs).map (u, ·)).or others = some (t, rest) → Leaves cs t rest := by
    intro word u others hu h_others h_eq
    rcases Option.or_eq_some_iff.mp h_eq with h_map | ⟨-, h_next⟩
    · obtain ⟨rest', h_some, h_pair⟩ := Option.map_eq_some_iff.mp h_map
      obtain ⟨rfl, rfl⟩ := Prod.mk.inj h_pair
      exact leaves_word h_some hu
    · exact h_others h_next
  unfold scanWord? at h
  refine h_word ?_ (h_word ?_ (h_word ?_ leaves_scanNumber)) h
  all_goals exact fun _ => nofun

/-- **Overlong tokens** have their digits in a row in the text. -/
theorem overlong_of_mem {steps n : Nat} {cs : List Char} (h : .overlong n ∈ tokensWithin steps cs) :
    Integer.digitLimit < n ∧ HasDigits n cs := by
  -- what is found in the rest of the text stands in the text
  have h_mono : ∀ {cs rest : List Char}, rest <:+ cs →
      Integer.digitLimit < n ∧ HasDigits n rest → Integer.digitLimit < n ∧ HasDigits n cs :=
    fun h_suffix h_rest => h_rest.imp id fun h_digits => h_digits.mono h_suffix.isInfix
  fun_induction tokensWithin steps cs with
  | case1 => cases h
  | case2 => simp at h
  | case3 steps c cs _ ih => exact h_mono (List.suffix_cons c cs) (ih h)
  | case4 steps c cs _ t h_mark ih =>
    refine h_mono (List.suffix_cons c cs) (ih ?_)
    rcases List.mem_cons.mp h with rfl | h
    · unfold punctuation? at h_mark
      repeat' split at h_mark
      all_goals cases h_mark
    · exact h
  | case5 steps cs us rest h_read _ _ ih =>
    refine h_mono ((suffix_of_read h_read).trans (List.suffix_cons _ cs)) (ih ?_)
    rcases List.mem_cons.mp h with h | h
    · cases h
    · exact h
  | case6 => simp at h
  | case7 steps c cs _ _ _ t rest h_scan ih =>
    have h_leaves := leaves_scanWord h_scan
    rcases List.mem_cons.mp h with h | h
    · exact h_leaves.overlong n h.symm
    · exact h_mono h_leaves.suffix (ih h)
  | case8 => simp at h

/-! ### Data -/

theorem fault_of_begin {stack : List Frame} {t : Token} {f : ReadFault}
    (h : Machine.begin stack t = .error (.fault f)) :
    ∃ n, t = .overlong n ∧ f = .tooManyDigits n := by
  unfold Machine.begin at h
  split at h <;> cases h
  exact ⟨_, rfl, rfl⟩

theorem fault_of_step {m : Machine} {t : Token} {f : ReadFault}
    (h : m.step t = .error (.fault f)) : ∃ n, t = .overlong n ∧ f = .tooManyDigits n := by
  unfold Machine.step at h
  split at h
  · exact fault_of_begin h
  · split at h <;> cases h
  · exact fault_of_begin h
  · cases h
  · cases h
  · cases h
  · cases h
  · split at h
    · unfold Machine.proceed at h
      repeat' split at h
      all_goals cases h
    · cases h
  · cases h

/-- The run over a list of tokens fails with a fault only at an overlong one. -/
theorem fault_of_run {m : Machine} {ts : List Token} {f : ReadFault}
    (h : m.run ts = .error (.fault f)) : ∃ n, .overlong n ∈ ts ∧ f = .tooManyDigits n := by
  unfold Machine.run at h
  induction ts generalizing m with
  | nil => cases h
  | cons t ts ih =>
    rw [List.foldlM_cons] at h
    cases h_step : m.step t with
    | error e =>
      rw [h_step] at h
      obtain rfl : e = .fault f := Except.error.inj h
      obtain ⟨n, rfl, h_fault⟩ := fault_of_step h_step
      exact ⟨n, List.mem_cons_self, h_fault⟩
    | ok m' =>
      rw [h_step] at h
      obtain ⟨n, h_mem, h_fault⟩ := ih h
      exact ⟨n, List.mem_cons_of_mem t h_mem, h_fault⟩

/-- **Faults of JSON.** The one fault that reading a text as JSON can have names so many digits that
stand in the text in a row, more than are read. -/
theorem fault_of_parse {cs : List Char} {f : ReadFault} (h : parse cs = .error (.fault f)) :
    ∃ n, f = .tooManyDigits n ∧ Integer.digitLimit < n ∧ HasDigits n cs := by
  unfold parse at h
  cases h_run : Machine.run {} (Token.list cs) with
  | error e =>
    rw [h_run] at h
    obtain rfl : e = .fault f := Except.error.inj h
    obtain ⟨n, h_mem, h_fault⟩ := fault_of_run h_run
    exact ⟨n, h_fault, overlong_of_mem h_mem⟩
  | ok m =>
    -- once the tokens are read nothing but the end can be amiss
    rw [h_run] at h
    change m.result = .error (.fault f) at h
    unfold Machine.result at h
    split at h <;> cases h

end Json

end SchemaNaming.Config
