import SchemaNaming.Decimal
import SchemaNaming.Fault

/-!
# Values

Documents, names and handler arguments are values: what a JSON or YAML document can hold, and
beside it tuples and *foreign* values, of which the library only knows the text they answer with
or the fault they raise when asked for it. Foreign values and undefined numbers carry marks: two of
them are one and the same if their marks are.

* `Value` — the values;
* `Value.truthy` — zero, empty and absent values are false;
* `Value.same` — equality across number types, by which mappings compare their keys;
* `Value.equal` — the same, but an undefined number does not equal itself;
* `Value.unhashable?` — why a value cannot be a key;
* `Entries` — mappings as lists of entries in insertion order, with `find?`, `set` and `ofPairs`.
-/

namespace SchemaNaming

structure Date where
  year : Nat
  month : Nat
  day : Nat
  deriving DecidableEq, Repr, Inhabited

/-- A value of a document. -/
inductive Value where
  | null
  | bool (b : Bool)
  | int (n : Int)
  | floating (x : Floating)
  | text (s : String)
  | bytes (b : List UInt8)
  | date (d : Date)
  | list (xs : List Value)
  | tuple (xs : List Value)
  | map (es : List (Value × Value))
  | foreign (mark : Nat) (answer : Except Fault String)
  deriving Inhabited

/-- The entries of a mapping in insertion order. -/
abbrev Entries := List (Value × Value)

namespace Value

/-- The name of the value's type in messages. -/
def typeName : Value → String
  | null => "NoneType"
  | bool _ => "bool"
  | int _ => "int"
  | floating _ => "float"
  | text _ => "str"
  | bytes _ => "bytes"
  | date _ => "datetime.date"
  | list _ => "list"
  | tuple _ => "tuple"
  | map _ => "dict"
  | foreign _ _ => "object"

/-- Absent, zero and empty values are false, all others true. -/
def truthy : Value → Bool
  | null => false
  | bool b => b
  | int n => n != 0
  | floating x => !x.isZero
  | text s => !s.isEmpty
  | bytes b => !b.isEmpty
  | date _ => true
  | list xs => !xs.isEmpty
  | tuple xs => !xs.isEmpty
  | map es => !es.isEmpty
  | foreign _ _ => true

def isMap : Value → Bool
  | map _ => true
  | _ => false

/-! ### Equality -/

/-- The integer that a truth value or an integer stands for. -/
def wholeNumber? : Value → Option Int
  | bool b => some (if b then 1 else 0)
  | int n => some n
  | _ => none

mutual
/-- The values are equal, or one and the same. Numbers compare by what they denote, whatever their
type, and mappings whatever the order of their entries. -/
def same : Value → Value → Bool
  | null, null => true
  | floating x, floating y => x.same y
  | floating x, b => x.toInt?.isSome && x.toInt? == b.wholeNumber?
  | a, floating y => y.toInt?.isSome && a.wholeNumber? == y.toInt?
  | text s, text t => s == t
  | bytes s, bytes t => s == t
  | date s, date t => s == t
  | list xs, list ys => sameAll xs ys
  | tuple xs, tuple ys => sameAll xs ys
  | map es, map fs => es.length == fs.length && sameEntries es fs
  | foreign a _, foreign b _ => a == b
  | a, b => a.wholeNumber?.isSome && a.wholeNumber? == b.wholeNumber?

/-- The lists are equal member by member. -/
def sameAll : List Value → List Value → Bool
  | [], [] => true
  | x :: xs, y :: ys => same x y && sameAll xs ys
  | _, _ => false

/-- Each entry of the first mapping stands in the second. -/
def sameEntries : List (Value × Value) → List (Value × Value) → Bool
  | [], _ => true
  | (k, v) :: es, fs => fs.any (fun f => same k f.1 && same v f.2) && sameEntries es fs
end

/-- Equality of values. An undefined number equals nothing, but a collection that holds one still
equals itself. -/
def equal : Value → Value → Bool
  | floating (.undefined _), _ => false
  | a, b => a.same b

mutual
/-- The type of the first part of the value that keeps it from being a key. -/
def unhashable? : Value → Option String
  | list _ => some "list"
  | map _ => some "dict"
  | tuple xs => firstUnhashable? xs
  | _ => none

/-- The first member that cannot be part of a key. -/
def firstUnhashable? : List Value → Option String
  | [] => none
  | x :: xs => match x.unhashable? with
    | some t => some t
    | none => firstUnhashable? xs
end

end Value

namespace Entries

def find? (es : Entries) (k : Value) : Option Value :=
  (List.find? (fun e => e.1.same k) es).map Prod.snd

/-- `es` with `v` under `k`: an equal key keeps its place, a new one comes last. -/
def set (es : Entries) (k v : Value) : Entries :=
  match es with
  | [] => [(k, v)]
  | e :: es => if e.1.same k then (e.1, v) :: es else e :: set es k v

def get? (es : Entries) (k : String) : Option Value := find? es (.text k)

/-- The mapping that setting the pairs one after another builds. -/
def ofPairs (pairs : List (Value × Value)) : Entries :=
  pairs.foldl (fun es e => set es e.1 e.2) []

end Entries

namespace Value

def entries? : Value → Option Entries
  | map es => some es
  | _ => none

end Value

end SchemaNaming
