import Mathlib.Logic.Relation
import SchemaNaming.Proofs.Dispatch.Pass
import SchemaNaming.Proofs.Mapping

/-!
# The walk over the schemas

The dispatcher walks the schemas of a document while its handlers may edit them. This module says
when such a walk returns.

A `WalkPoint` is where a walk stands when it asks for the next schema, and `WalkPoint.Step` leads
from one such point to the next: past an entry that is no mapping, or through the pass for one that
is. `WalkPoint.Turn` has what a walk can do instead of a step, which is to end in one of four ways.
The walk from any point that is reached is what is left of the walk (`WalkPoint.walk_eq`), so its
outcome can be read off the points reached:

* `WalkPoint.returns_iff` — provided that no pass aborts, the walk returns if and only if it is
  `WalkPoint.Undisturbed`: whenever it asks for the next schema there are as many schemas as at its
  start, and once it has met that many there is no other;
* `WalkPoint.quiet_of_returns` — a walk that returns is one whose passes all do;
* `WalkPoint.undisturbed_of_outline` — handlers may replace schemas as they like as long as the keys
  keep their places and the mappings stay mappings, and then every mapping is met.

The two faults are not contained, as they do not come from a call of a handler. So handlers that
never abort can still end the operation, by adding a schema to the document or taking one out.
-/

namespace SchemaNaming

namespace Session

/-- The table of the schemas being walked. -/
def table (s : Session) : SchemaTable := s.schemas.getD {}

theorem table_eq {s : Session} {t : SchemaTable} (h : s.schemas = some t) : s.table = t := by
  unfold table
  rw [h]
  rfl

/-! ### The turns of a walk -/

section Turns

variable {size left i j : Nat} {names : Entries} {e : Value × Value} {s t : Session} {f : Fault}

theorem walk_of_size_ne (h_size : s.table.size ≠ size) :
    walk size left i names s = (s, .error .sizeChanged) := by
  unfold walk
  exact if_pos h_size

/-- While the number of schemas is the one at the start, the turn depends on the next schema. -/
private theorem walk_of_size_eq (h_size : s.table.size = size) :
    walk size left i names s =
      match s.table.next? i, left with
      | none, _ => (s, .ok names)
      | some _, 0 => (s, .error .keysChanged)
      | some (i, (name, body)), left + 1 =>
        if body.isMap then
          match (s.enter name).applySchema name body with
          | (s, some fault) => (s, .error fault)
          | (s, none) => walk size left i (names.set name s.currentName) s
        else walk size left i names s := by
  conv_lhs => unfold walk
  exact if_neg (not_not_intro h_size)

theorem walk_of_none (h_size : s.table.size = size) (h_next : s.table.next? i = none) :
    walk size left i names s = (s, .ok names) := by
  rw [walk_of_size_eq h_size, h_next]

theorem walk_of_surplus (h_size : s.table.size = size) (h_next : s.table.next? i = some (j, e)) :
    walk size 0 i names s = (s, .error .keysChanged) := by
  rw [walk_of_size_eq h_size, h_next]

theorem walk_ignores (h_size : s.table.size = size) (h_next : s.table.next? i = some (j, e))
    (h_map : e.2.isMap = false) :
    walk size (left + 1) i names s = walk size left j names s := by
  rw [walk_of_size_eq h_size, h_next]
  exact if_neg (by rw [h_map]; exact Bool.false_ne_true)

theorem walk_dispatches (h_size : s.table.size = size) (h_next : s.table.next? i = some (j, e))
    (h_map : e.2.isMap = true) (h_pass : (s.enter e.1).applySchema e.1 e.2 = (t, none)) :
    walk size (left + 1) i names s = walk size left j (names.set e.1 t.currentName) t := by
  rw [walk_of_size_eq h_size, h_next]
  dsimp only
  rw [if_pos h_map, h_pass]

theorem walk_of_fault (h_size : s.table.size = size) (h_next : s.table.next? i = some (j, e))
    (h_map : e.2.isMap = true) (h_pass : (s.enter e.1).applySchema e.1 e.2 = (t, some f)) :
    walk size (left + 1) i names s = (t, .error f) := by
  rw [walk_of_size_eq h_size, h_next]
  dsimp only
  rw [if_pos h_map, h_pass]

theorem eq_afterPass (hn : ∀ h ∈ s.handlers, h.Nameable)
    (h_pass : (s.enter e.1).applySchema e.1 e.2 = (t, none)) :
    t = s.afterPass (.schema e.1 e.2) := by
  have h_returns : s.Returns (.schema e.1 e.2) := congrArg Prod.snd h_pass
  exact congrArg Prod.fst (h_pass.symm.trans (pass_eq_afterPass hn h_returns))

end Turns

end Session

/-- Where a walk stands when it asks for the next schema. -/
structure WalkPoint where
  /-- The slots before this one are behind the walk. -/
  slot : Nat
  /-- How many schemas may still come. -/
  left : Nat
  session : Session

namespace WalkPoint

def table (p : WalkPoint) : SchemaTable := p.session.table

/-- The next schema, with the slot behind it. -/
def next? (p : WalkPoint) : Option (Nat × (Value × Value)) := p.table.next? p.slot

/-- The walk from this point, `names` being those of the schemas behind it. -/
def walk (size : Nat) (names : Entries) (p : WalkPoint) : Session × Except Fault Entries :=
  Session.walk size p.left p.slot names p.session

/-- The pass for a schema, up to the fault that ends it. -/
def pass (p : WalkPoint) (e : Value × Value) : Session × Option Fault :=
  (p.session.enter e.1).applySchema e.1 e.2

/-- One turn of a walk that started with `size` schemas. -/
inductive Step (size : Nat) : WalkPoint → WalkPoint → Prop
  /-- What is no mapping is passed over. -/
  | ignores {i j left : Nat} {s : Session} {e : Value × Value}
      (h_size : s.table.size = size) (h_next : s.table.next? i = some (j, e))
      (h_map : e.2.isMap = false) :
      Step size ⟨i, left + 1, s⟩ ⟨j, left, s⟩
  /-- A mapping goes through the enabled handlers. -/
  | dispatches {i j left : Nat} {s t : Session} {e : Value × Value}
      (h_size : s.table.size = size) (h_next : s.table.next? i = some (j, e))
      (h_map : e.2.isMap = true) (h_pass : (s.enter e.1).applySchema e.1 e.2 = (t, none)) :
      Step size ⟨i, left + 1, s⟩ ⟨j, left, t⟩

def Reaches (size : Nat) : WalkPoint → WalkPoint → Prop := Relation.ReflTransGen (Step size)

/-- Wherever the walk gets it finds as many schemas as at its start, and none once it has met that
many. -/
structure Undisturbed (size : Nat) (p : WalkPoint) : Prop where
  /-- The number of schemas never shows a change. -/
  sized : ∀ q, p.Reaches size q → q.table.size = size
  /-- No schema is left over. -/
  ended : ∀ q, p.Reaches size q → q.left = 0 → q.next? = none

/-- No fault gets out of a pass that the walk makes. -/
def Quiet (size : Nat) (p : WalkPoint) : Prop :=
  ∀ q, p.Reaches size q → ∀ j e, q.left ≠ 0 → q.table.size = size → q.next? = some (j, e) →
    e.2.isMap = true → (q.pass e).2 = none

variable {size : Nat} {p q : WalkPoint}

theorem Undisturbed.step (h : p.Undisturbed size) (h_step : Step size p q) :
    q.Undisturbed size where
  sized r hr := h.sized r (hr.head h_step)
  ended r hr := h.ended r (hr.head h_step)

theorem Quiet.step (h : p.Quiet size) (h_step : Step size p q) : q.Quiet size :=
  fun r hr => h r (hr.head h_step)

/-- The walk goes on from wherever it gets. -/
theorem walk_eq (h : p.Reaches size q) (names : Entries) :
    ∃ names', p.walk size names = q.walk size names' := by
  -- by induction from the near end, as the names grow with every step
  induction h using Relation.ReflTransGen.head_induction_on generalizing names with
  | refl => exact ⟨names, rfl⟩
  | head h_step _ ih =>
    cases h_step with
    | ignores h_size h_next h_map =>
      obtain ⟨names', h_eq⟩ := ih names
      exact ⟨names', (Session.walk_ignores h_size h_next h_map).trans h_eq⟩
    | @dispatches i j left s t e h_size h_next h_map h_pass =>
      obtain ⟨names', h_eq⟩ := ih (names.set e.1 t.currentName)
      exact ⟨names', (Session.walk_dispatches h_size h_next h_map h_pass).trans h_eq⟩

/-- What a walk does next, the names so far being `names`. -/
inductive Turn (size : Nat) (names : Entries) (p : WalkPoint) : Prop
  /-- It finds that the number of schemas has changed. -/
  | resized (h_size : p.table.size ≠ size)
      (h_eq : p.walk size names = (p.session, .error .sizeChanged))
  /-- No schema is left. -/
  | done (h_next : p.next? = none) (h_eq : p.walk size names = (p.session, .ok names))
  /-- It finds a schema although it has met as many as there were. -/
  | surplus {j : Nat} {e : Value × Value} (h_next : p.next? = some (j, e)) (h_left : p.left = 0)
      (h_eq : p.walk size names = (p.session, .error .keysChanged))
  /-- A fault gets out of a pass. -/
  | stopped {j : Nat} {e : Value × Value} {t : Session} {f : Fault} (h_left : p.left ≠ 0)
      (h_size : p.table.size = size) (h_next : p.next? = some (j, e)) (h_map : e.2.isMap = true)
      (h_pass : p.pass e = (t, some f)) (h_eq : p.walk size names = (t, .error f))
  /-- It takes a step. -/
  | goes {q : WalkPoint} {names' : Entries} (h_step : Step size p q)
      (h_left : p.left = q.left + 1) (h_next : ∃ e, p.next? = some (q.slot, e))
      (h_eq : p.walk size names = q.walk size names')

/-- **Every turn of a walk** is one of these. -/
theorem turn (size : Nat) (names : Entries) (p : WalkPoint) : p.Turn size names := by
  obtain ⟨i, left, s⟩ := p
  -- in the order in which the walk looks: the size, the next entry, whether one may still come
  by_cases h_size : s.table.size = size
  · cases h_next : s.table.next? i with
    | none => exact .done h_next (Session.walk_of_none h_size h_next)
    | some x =>
      obtain ⟨j, e⟩ := x
      cases left with
      | zero => exact .surplus h_next rfl (Session.walk_of_surplus h_size h_next)
      | succ left =>
        by_cases h_map : e.2.isMap
        · rcases h_pass : (s.enter e.1).applySchema e.1 e.2 with ⟨t, _ | f⟩
          · exact .goes (.dispatches h_size h_next h_map h_pass) rfl ⟨e, h_next⟩
              (Session.walk_dispatches h_size h_next h_map h_pass)
          · exact .stopped (Nat.succ_ne_zero left) h_size h_next h_map h_pass
              (Session.walk_of_fault h_size h_next h_map h_pass)
        · have h_map' : e.2.isMap = false := Bool.eq_false_iff.mpr h_map
          exact .goes (.ignores h_size h_next h_map') rfl ⟨e, h_next⟩
            (Session.walk_ignores h_size h_next h_map')
  · exact .resized h_size (Session.walk_of_size_ne h_size)

theorem Quiet.not_stopped (h_quiet : p.Quiet size) {j : Nat} {e : Value × Value} {t : Session}
    {f : Fault} (h_left : p.left ≠ 0) (h_size : p.table.size = size)
    (h_next : p.next? = some (j, e)) (h_map : e.2.isMap = true) : p.pass e ≠ (t, some f) := by
  intro h_pass
  have h_none := h_quiet p .refl j e h_left h_size h_next h_map
  rw [h_pass] at h_none
  cases h_none

/-- A point with a next schema and room for it is left by a step, unless a fault stops the walk
there. -/
theorem Quiet.exists_step (h_quiet : p.Quiet size) (h_size : p.table.size = size) {j left : Nat}
    {e : Value × Value} (h_left : p.left = left + 1) (h_next : p.next? = some (j, e)) :
    ∃ t, Step size p ⟨j, left, t⟩ := by
  -- the names do not matter here; four of the turns contradict what is given
  cases p.turn size [] with
  | resized h_ne => exact absurd h_size h_ne
  | done h_none =>
    rw [h_next] at h_none
    cases h_none
  | surplus _ h_zero =>
    rw [h_left] at h_zero
    cases h_zero
  | stopped h_left _ h_next h_map h_pass =>
    exact absurd h_pass (h_quiet.not_stopped h_left h_size h_next h_map)
  | @goes q _ h_step h_left' h_next' =>
    -- the step leads where the next schema says
    obtain ⟨k, l, t⟩ := q
    obtain ⟨e', h_next'⟩ := h_next'
    rw [h_next] at h_next'
    obtain rfl : j = k := congrArg Prod.fst (Option.some.inj h_next')
    obtain rfl : left = l := Nat.succ.inj (h_left.symm.trans h_left')
    exact ⟨t, h_step⟩

/-- An undisturbed walk takes one step after another until nothing is left. -/
theorem returns_of_undisturbed {p : WalkPoint} (h_quiet : p.Quiet size) (h : p.Undisturbed size)
    (names : Entries) : ∃ names', (p.walk size names).2 = .ok names' := by
  -- by recursion on how many schemas may still come, which every step counts down
  cases p.turn size names with
  | resized h_size => exact absurd (h.sized p .refl) h_size
  | done _ h_eq => exact ⟨names, by rw [h_eq]⟩
  | surplus h_next h_zero =>
    rw [h.ended p .refl h_zero] at h_next
    cases h_next
  | stopped h_left h_size h_next h_map h_pass =>
    exact absurd h_pass (h_quiet.not_stopped h_left h_size h_next h_map)
  | @goes q names' h_step h_left _ h_eq =>
    have h_dec : q.left < p.left := by omega
    rw [h_eq]
    exact returns_of_undisturbed (h_quiet.step h_step) (h.step h_step) names'
termination_by p.left

/-- **When a walk returns.** If no fault gets out of its passes, a walk returns if and only if it is
undisturbed. -/
theorem returns_iff (h_quiet : p.Quiet size) (names : Entries) :
    (∃ names', (p.walk size names).2 = .ok names') ↔ p.Undisturbed size := by
  refine ⟨?_, fun h => returns_of_undisturbed h_quiet h names⟩
  -- a walk that returns does so from every point that it reaches
  rintro ⟨names', h_ok⟩
  refine ⟨fun q hq => ?_, fun q hq h_left => ?_⟩
  · by_contra h_size
    obtain ⟨names'', h_eq⟩ := walk_eq hq names
    rw [h_eq, walk, Session.walk_of_size_ne h_size] at h_ok
    cases h_ok
  · by_contra h_some
    obtain ⟨x, h_next⟩ := Option.ne_none_iff_exists'.mp h_some
    obtain ⟨j, e⟩ := x
    -- the size is looked at first, so it may be the other fault that ends the walk here
    obtain ⟨names'', h_eq⟩ := walk_eq hq names
    by_cases h_size : q.table.size = size
    · rw [h_eq, walk, h_left, Session.walk_of_surplus h_size h_next] at h_ok
      cases h_ok
    · rw [h_eq, walk, Session.walk_of_size_ne h_size] at h_ok
      cases h_ok

/-- A walk that returns lets no fault out of its passes. -/
theorem quiet_of_returns {names names' : Entries} (h_ok : (p.walk size names).2 = .ok names') :
    p.Quiet size := by
  intro q hq j e h_left h_size h_next h_map
  refine Option.eq_none_iff_forall_ne_some.mpr fun f hf => ?_
  -- from there on the walk would be stopped
  obtain ⟨names'', h_eq⟩ := walk_eq hq names
  obtain ⟨i, left, s⟩ := q
  obtain ⟨l, rfl⟩ := Nat.exists_eq_succ_of_ne_zero h_left
  have h_stop : walk size names'' ⟨i, l + 1, s⟩ = ((pass ⟨i, l + 1, s⟩ e).1, .error f) :=
    Session.walk_of_fault h_size h_next h_map (Prod.ext rfl hf)
  rw [h_eq, h_stop] at h_ok
  cases h_ok

/-! ### Edits that keep the outline -/

/-- The walk gets to the schema called `k` at a time when it is a mapping, and so sends it through
the handlers. -/
def Meets (size : Nat) (p q : WalkPoint) (k body : Value) : Prop :=
  p.Reaches size q ∧ (∃ j, q.next? = some (j, (k, body))) ∧ body.isMap = true

/-- Wherever the walk gets, the same keys stand in the same slots, and the same ones of them hold
mappings. -/
def KeepsOutline (size : Nat) (p : WalkPoint) : Prop :=
  ∀ q, p.Reaches size q → q.table.outline = p.table.outline

theorem KeepsOutline.step (h : p.KeepsOutline size) (h_step : Step size p q) :
    q.KeepsOutline size :=
  fun r hr => (h r (hr.head h_step)).trans (h q (.single h_step)).symm

/-- A step takes the first of the schemas to come. -/
theorem KeepsOutline.left_eq (h : p.KeepsOutline size) (h_step : Step size p q)
    (h_left : (p.table.entriesFrom p.slot).length = p.left) :
    (q.table.entriesFrom q.slot).length = q.left := by
  have h_out := h q (.single h_step)
  have h_first : ∃ e, p.table.entriesFrom p.slot = e :: p.table.entriesFrom q.slot := by
    cases h_step with
    | ignores _ h_next _ => exact ⟨_, SchemaTable.entriesFrom_of_next? h_next⟩
    | dispatches _ h_next _ _ => exact ⟨_, SchemaTable.entriesFrom_of_next? h_next⟩
  obtain ⟨e, h_first⟩ := h_first
  -- one entry less is to come, and one less may come
  have h_lefts : p.left = q.left + 1 := by cases h_step <;> rfl
  rw [h_first, List.length_cons, h_lefts] at h_left
  rw [SchemaTable.length_entriesFrom_of_outline h_out]
  exact Nat.succ.inj h_left

/-- **Replacing schemas is safe.** A walk whose handlers keep the outline of the table is
undisturbed and meets every mapping that was there at its start. -/
theorem undisturbed_of_outline (h_quiet : p.Quiet size) (h : p.KeepsOutline size)
    (h_size : p.table.size = size) (h_left : (p.table.entriesFrom p.slot).length = p.left) :
    p.Undisturbed size
      ∧ ∀ e ∈ p.table.entriesFrom p.slot, e.2.isMap = true →
          ∃ q body, p.Meets size q e.1 body := by
  refine ⟨⟨fun q hq => ?_, fun q hq => ?_⟩, ?_⟩
  · exact (SchemaTable.size_of_outline (h q hq)).trans h_size
  · -- the count of what may come stays that of what is to come
    have h_count : (q.table.entriesFrom q.slot).length = q.left := by
      induction hq using Relation.ReflTransGen.head_induction_on with
      | refl => exact h_left
      | head h_step _ ih =>
        exact ih (h_quiet.step h_step) (h.step h_step)
          ((SchemaTable.size_of_outline (h _ (.single h_step))).trans h_size)
          (h.left_eq h_step h_left)
    intro h_zero
    rw [h_zero] at h_count
    exact SchemaTable.next?_eq_none_iff.mpr (List.eq_nil_of_length_eq_zero h_count)
  · -- by induction on how many entries may come; the outline names those to come at every point
    obtain ⟨left, h_l⟩ : ∃ left, p.left = left := ⟨_, rfl⟩
    induction left generalizing p with
    | zero =>
      intro e he _
      rw [h_l] at h_left
      rw [List.eq_nil_of_length_eq_zero h_left] at he
      cases he
    | succ left ih =>
      intro e he h_map
      obtain ⟨e', rest, h_first⟩ := List.exists_cons_of_ne_nil (List.ne_nil_of_mem he)
      obtain ⟨j, h_next, h_rest⟩ := SchemaTable.next?_of_entriesFrom h_first
      rw [h_first] at he
      rcases List.mem_cons.mp he with rfl | he
      · -- the entry is the one at hand
        exact ⟨p, e.2, .refl, ⟨j, h_next⟩, h_map⟩
      · -- the entry is still to come after the next step, perhaps with another mapping
        obtain ⟨t, h_step⟩ := h_quiet.exists_step h_size h_l h_next
        have h_out := h _ (.single h_step)
        have h_mem : (e.1, true) ∈ ((⟨j, left, t⟩ : WalkPoint).table.entriesFrom j).map
            fun e => (e.1, e.2.isMap) := by
          rw [SchemaTable.entriesFrom_of_outline h_out, h_rest, ← h_map]
          exact List.mem_map_of_mem he
        obtain ⟨x, hx, h_eq⟩ := List.mem_map.mp h_mem
        obtain ⟨h_key, h_xmap⟩ := Prod.mk.inj h_eq
        obtain ⟨q, body, h_reach, h_meets⟩ := ih (h_quiet.step h_step) (h.step h_step)
          ((SchemaTable.size_of_outline h_out).trans h_size) (h.left_eq h_step h_left) rfl x hx
          h_xmap
        rw [h_key] at h_meets
        exact ⟨q, body, h_reach.head h_step, h_meets⟩

/-- Handlers that edit no schemas keep the outline; so does the absence of handlers. -/
theorem keepsOutline_of_tame (h_tame : ∀ h ∈ p.session.handlers, h.Tame) : p.KeepsOutline size := by
  -- tame handlers register only tame ones, so no pass on the way edits the table
  have h_same : ∀ q, p.Reaches size q →
      (∀ h ∈ q.session.handlers, h.Tame) ∧ q.session.schemas = p.session.schemas := by
    intro q hq
    induction hq with
    | refl => exact ⟨h_tame, rfl⟩
    | tail _ h_step ih =>
      obtain ⟨h_handlers, h_schemas⟩ := ih
      cases h_step with
      | ignores => exact ⟨h_handlers, h_schemas⟩
      | dispatches _ _ _ h_pass =>
        obtain rfl := Session.eq_afterPass (fun h hh => (h_handlers h hh).nameable) h_pass
        exact ⟨Session.forall_tame_afterPass h_handlers _,
          (Session.afterPass_schemas h_handlers _).trans h_schemas⟩
  intro q hq
  unfold table Session.table
  rw [(h_same q hq).2]

end WalkPoint

namespace Session

/-! ### From the operation to the walk -/

/-- The table of a document's schemas, if it has any. -/
def tableOf (doc : Value) : Option SchemaTable := (schemasOf? doc).map SchemaTable.ofEntries

/-- The pass for the document that an operation on a document and its schemas starts with. -/
def docPass (s : Session) (doc : Value) : Session × Option Fault :=
  (s.withSchemas (tableOf doc)).applyDoc doc

/-- Where the walk over the schemas of a document starts, the pass for the document being over. -/
def walkStart (s : Session) (doc : Value) : WalkPoint :=
  ⟨0, (s.docPass doc).1.table.size, (s.docPass doc).1⟩

def schemaWalk (s : Session) (doc : Value) : Session × Except Fault Entries :=
  (s.walkStart doc).walk (s.walkStart doc).left []

/-- What the operation does in the end: it reports, and forgets the table of schemas. `schemas` says
whether there was one to walk over, and `answer` is that of the walk. -/
def close (s : Session) (schemas : Bool) (answer : Except Fault Entries) : Session :=
  match schemas, answer with
  | false, _ => s.notify .noSchemas
  | true, .error _ => s.withSchemas none
  | true, .ok names => (s.withSchemas none).notify (.applied names.length (renamed names))

section ApplyComponents

variable {s : Session} (hctx : s.context.isSome) {doc : Value}

include hctx

omit doc in
private theorem not_isNone : ¬ s.context.isNone = true := by
  rw [Option.isNone_iff_eq_none]
  exact Option.isSome_iff_ne_none.mp hctx

/-- A fault that gets out of the pass for the document ends the operation. -/
theorem applyComponents_of_fault {f : Fault} (hf : (s.docPass doc).2 = some f) :
    s.applyComponents doc = ((s.docPass doc).1.withSchemas none, .error f) := by
  have h_pass : { s with schemas := (schemasOf? doc).map SchemaTable.ofEntries }.applyDoc doc
      = ((s.docPass doc).1, some f) := Prod.ext rfl hf
  rw [applyComponents, if_neg (not_isNone hctx), h_pass]
  rfl

/-- Otherwise it answers as the walk does, and closes. -/
theorem applyComponents_eq (h_none : (s.docPass doc).2 = none) :
    s.applyComponents doc = ((s.schemaWalk doc).1.close (s.docPass doc).1.schemas.isSome
      (s.schemaWalk doc).2, (s.schemaWalk doc).2) := by
  have h_pass : { s with schemas := (schemasOf? doc).map SchemaTable.ofEntries }.applyDoc doc
      = ((s.docPass doc).1, none) := Prod.ext rfl h_none
  rw [applyComponents, if_neg (not_isNone hctx), h_pass]
  unfold schemaWalk walkStart WalkPoint.walk
  dsimp only
  cases h_schemas : (s.docPass doc).1.schemas with
  | none =>
    -- the walk over no schemas is over at once
    have h_table : (s.docPass doc).1.table = {} := by
      unfold table
      rw [h_schemas]
      rfl
    rw [h_table, walk_of_none (by rw [h_table]) (by rw [h_table]; rfl)]
    rfl
  | some t =>
    rw [table_eq h_schemas]
    dsimp only
    rcases walk t.size t.size 0 [] (s.docPass doc).1 with ⟨u, f | names⟩
    · rfl
    · rfl

/-- Of the session that the walk leaves the operation changes only the table of schemas and the
notices. -/
theorem applyComponents_of_none (h_none : (s.docPass doc).2 = none) :
    (s.applyComponents doc).2 = (s.schemaWalk doc).2
      ∧ ∀ {α : Type} (view : Session → α), (∀ t u, view (t.withSchemas u) = view t) →
          (∀ t n, view (t.notify n) = view t) →
          view (s.applyComponents doc).1 = view (s.schemaWalk doc).1 := by
  rw [applyComponents_eq hctx h_none]
  refine ⟨rfl, fun view h_schemas h_notify => ?_⟩
  unfold close
  split
  · exact h_notify _ _
  · exact h_schemas _ none
  · exact (h_notify _ _).trans (h_schemas _ none)

end ApplyComponents

end Session

end SchemaNaming
