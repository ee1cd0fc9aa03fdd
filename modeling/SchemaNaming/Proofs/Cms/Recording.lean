import SchemaNaming.Proofs.Cms.Agreement
import SchemaNaming.Proofs.Value.Overwriting

/-!
# Recording many names

A run records many names in one context, some of them more than once. Of the context this changes
the map of names only, which is created with the first record (`Context.recordAll_nameMap`), and the
same records a second time change nothing (`Context.recordAll_recordAll`).

A context that started without a map *holds* the records made in it. `Context.Holds` is all that the
context can then be asked: what is read back under a name, whether there is a map, and in which
order the keys stand.
-/

namespace SchemaNaming

namespace Context

variable (c : Context) (rs : List (String × String))

theorem recordAll_doc : (c.recordAll rs).doc = c.doc := by rw [c.recordAll_frame rs]

theorem recordAll_caller : (c.recordAll rs).caller = c.caller := by rw [c.recordAll_frame rs]

theorem recordAll_names : (c.recordAll rs).names = c.names.setTexts rs := by
  induction rs generalizing c with
  | nil => rfl
  | cons r rs ih => exact ih (c.record r.1 r.2)

/-- The map of names is created with the first record. -/
theorem recordAll_nameMap :
    (c.recordAll rs).nameMap = if rs = [] then c.nameMap else some (c.names.setTexts rs) := by
  obtain rfl | ⟨qs, r, rfl⟩ := rs.eq_nil_or_concat
  · rfl
  · rw [List.concat_eq_append, if_neg (List.concat_ne_nil r qs), recordAll_append,
      Entries.setTexts_concat, ← recordAll_names]
    rfl

/-- **The same records again** leave the context as it is. -/
theorem recordAll_recordAll : (c.recordAll rs).recordAll rs = c.recordAll rs := by
  rw [recordAll_frame (c.recordAll rs) rs]
  have h_map : ((c.recordAll rs).recordAll rs).nameMap = (c.recordAll rs).nameMap := by
    rw [recordAll_nameMap, recordAll_names, Entries.setTexts_self, recordAll_nameMap]
    split <;> rfl
  rw [h_map]

theorem recordAll_nameMap_congr {c d : Context} (h : c.nameMap = d.nameMap)
    (rs : List (String × String)) : (c.recordAll rs).nameMap = (d.recordAll rs).nameMap := by
  rw [recordAll_nameMap, recordAll_nameMap, names, names, h]

/-- The context has the records `rs` and no others. -/
def Holds (d : Context) (rs : List (String × String)) : Prop :=
  d.nameMap = if rs = [] then none else some (Entries.setTexts [] rs)

section Holds

variable {c d : Context} {rs : List (String × String)}

theorem holds_of_nameMap (h_new : c.nameMap = none) (h_map : d.nameMap = (c.recordAll rs).nameMap) :
    d.Holds rs := by
  have h_names : c.names = [] := by
    rw [names, h_new]
    rfl
  rw [Holds, h_map, recordAll_nameMap, h_new, h_names]

theorem Holds.names_eq (h : d.Holds rs) : d.names = Entries.setTexts [] rs := by
  rw [names, h]
  split
  · next h_nil =>
    rw [h_nil]
    rfl
  · rfl

/-- **The last record under a name** is read back under it; a name that is not recorded stands for
itself. -/
theorem Holds.resolvedName (h : d.Holds rs) (x : String) :
    d.resolvedName (.text x) = .ok (.text ((rs.reverse.lookup x).getD x)) := by
  have h_find : d.names.find? (.text x) = (rs.reverse.lookup x).map .text := by
    rw [h.names_eq, Entries.find?_setTexts]
    exact Option.or_none
  rw [resolvedName_text, h_find]
  cases rs.reverse.lookup x <;> rfl

/-- **The map of names** is created with the first record. -/
theorem Holds.nameMap_eq_none_iff (h : d.Holds rs) : d.nameMap = none ↔ rs = [] := by
  rw [h]
  split
  · next h_nil => exact iff_of_true rfl h_nil
  · next h_some => exact iff_of_false nofun h_some

/-- The map of names is never an empty one. -/
theorem Holds.nameMap_ne_empty (h : d.Holds rs) : d.nameMap ≠ some [] := by
  rw [h]
  cases rs with
  | nil => exact nofun
  | cons r rs =>
    rw [if_neg (List.cons_ne_nil r rs)]
    intro h_empty
    have h_mem := Entries.mem_keys_setTexts [] (r :: rs) List.mem_cons_self
    rw [Option.some.inj h_empty] at h_mem
    cases h_mem

/-- **The keys** stand in the order of their first records. -/
theorem Holds.keys (h : d.Holds rs) :
    d.names.keys = (rs.map Prod.fst).eraseDups.map .text := by
  rw [h.names_eq, Entries.keys_setTexts_nil]

/-- With later records no key is lost, and none changes its place. -/
theorem Holds.keys_prefix {d' : Context} {later : List (String × String)} (h : d.Holds rs)
    (h' : d'.Holds (rs ++ later)) : d.names.keys <+: d'.names.keys := by
  have h_later : Entries.setTexts [] (rs ++ later) = (Entries.setTexts [] rs).setTexts later :=
    List.foldl_append
  rw [h.names_eq, h'.names_eq, h_later]
  exact Entries.keys_prefix_setTexts _ later

end Holds

end Context

end SchemaNaming
