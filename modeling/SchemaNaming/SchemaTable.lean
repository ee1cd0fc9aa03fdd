import SchemaNaming.Value.Basic

/-!
# The table of schemas being walked

The schemas of a document are walked in order while handlers may edit them. What a walk sees then
depends on how the table keeps its entries, so the table is described to that extent.

Entries stand in slots, in insertion order. Dropping an entry leaves its slot empty; a new entry
takes the next fresh slot. A table has `8 · 2 ^ k` cells, two thirds of which are slots; the first
one has 8. When the fresh slots are used up, the entries move to a new table, without the empty
slots between them; it is the smallest from 16 cells on whose cells number at least three times the
entries, but a table of 8 cells if no entries are left. The same move happens when the first key
that is no text arrives in a table of text keys.

* `SchemaTable.ofEntries` — the table of a document's schemas;
* `SchemaTable.set`, `SchemaTable.drop?` — the edits;
* `SchemaTable.next?` — the first entry at or after a slot, by which a walk goes on.
-/

namespace SchemaNaming

/-- A table of entries in slots. -/
structure SchemaTable where
  /-- The slots in use or used before. -/
  slots : List (Option (Value × Value)) := []
  /-- The number of fresh slots. -/
  fresh : Nat := 5
  /-- Every key so far is a text. -/
  textKeys : Bool := true
  deriving Inhabited

namespace SchemaTable

def entries (t : SchemaTable) : Entries := t.slots.reduceOption

def size (t : SchemaTable) : Nat := t.entries.length

/-- The cells of the smallest table with at least `n` cells, found by doubling `cells` at most
`steps` times. -/
def cellsFor (n : Nat) : (steps cells : Nat) → Nat
  | 0, cells => cells
  | steps + 1, cells => if cells < n then cellsFor n steps (2 * cells) else cells

/-- The entries moved to a new table. -/
def moved (t : SchemaTable) : SchemaTable :=
  let n := 3 * t.size
  { t with
    slots := t.entries.map some
    fresh := 2 * cellsFor n n (if n = 0 then 8 else 16) / 3 - t.size }

def has (t : SchemaTable) (k : Value) : Bool := t.entries.any fun e => e.1.same k

/-- A value under a key that has an entry. -/
def replace (t : SchemaTable) (k v : Value) : SchemaTable :=
  { t with slots := t.slots.map fun s => s.map fun e => if e.1.same k then (e.1, v) else e }

/-- A new entry in the next fresh slot. -/
def append (t : SchemaTable) (k v : Value) : SchemaTable :=
  let t := if t.fresh = 0 then t.moved else t
  { t with slots := t.slots ++ [some (k, v)], fresh := t.fresh - 1 }

/-- A value under a key, new or not. -/
def set (t : SchemaTable) (k v : Value) : SchemaTable :=
  let t := match k with
    | .text _ => t
    -- A table that was never written to takes any key as it is.
    | _ =>
      if t.slots.isEmpty || !t.textKeys then { t with textKeys := false }
      else { t.moved with textKeys := false }
  if t.has k then t.replace k v else t.append k v

/-- The table without the entry under `k`; none if there is no such entry. -/
def drop? (t : SchemaTable) (k : Value) : Option SchemaTable :=
  if t.has k then
    some { t with slots := t.slots.map fun s => s.filter fun e => !e.1.same k }
  else none

/-- The table that setting the entries one after another builds. -/
def ofEntries (es : Entries) : SchemaTable := es.foldl (fun t e => t.set e.1 e.2) {}

/-- The first entry at slot `i` or later, with the slot after it. -/
def next? (t : SchemaTable) (i : Nat) : Option (Nat × (Value × Value)) :=
  go i (t.slots.drop i)
where
  go (i : Nat) : List (Option (Value × Value)) → Option (Nat × (Value × Value))
    | [] => none
    | none :: slots => go (i + 1) slots
    | some e :: _ => some (i + 1, e)

end SchemaTable

end SchemaNaming
