import SchemaNaming.Config.Data

/-!
# Time stamps

A time stamp is a date, optionally with a time of day and a time zone. Its form is checked first,
then whether there is such a day and time.

* `Timestamp.read?` — the parts of a text that has the form;
* `Timestamp.check` — whether there is such a day and time.
-/

namespace SchemaNaming.Config.Yaml

/-- A time of day, with its distance from universal time in minutes. -/
structure TimeOfDay where
  hour : Nat
  minute : Nat
  second : Nat
  zone : Option Int

structure Timestamp where
  year : Nat
  month : Nat
  day : Nat
  time : Option TimeOfDay
  /-- Month and day have two digits. -/
  full : Bool

namespace Timestamp

/-- Takes between `least` and `most` digits from the front of `cs`. -/
def digits? (least most : Nat) (cs : List Char) : Option (Nat × Nat × List Char) :=
  let ds := (cs.take most).takeWhile Char.isDigit
  if least ≤ ds.length then
    some (ds.foldl (fun n c => 10 * n + (c.toNat - 48)) 0, ds.length, cs.drop ds.length)
  else none

/-- Takes the character `c` from the front of `cs`. -/
def char? (c : Char) : List Char → Option (List Char)
  | d :: cs => if d = c then some cs else none
  | [] => none

def skipBlank (cs : List Char) : List Char := cs.dropWhile fun c => c = ' ' || c = '\t'

/-- Reads a time zone, which ends the text: `Z`, or a sign with hours and perhaps minutes. -/
def zone? (cs : List Char) : Option (Option Int) := do
  match cs with
  | [] => return none
  | 'Z' :: cs => if cs = [] then return none else none
  | sign :: cs =>
    if sign ≠ '+' ∧ sign ≠ '-' then none else
    let (hours, _, cs) ← digits? 1 2 cs
    let minutes ← match cs with
      | [] => some 0
      | ':' :: cs => do
        let (minutes, _, cs) ← digits? 2 2 cs
        if cs = [] then some minutes else none
      | _ => none
    let offset : Int := 60 * hours + minutes
    return some (if sign = '-' then -offset else offset)

/-- Reads a time of day, which ends the text. -/
def time? (cs : List Char) : Option TimeOfDay := do
  let (hour, _, cs) ← digits? 1 2 cs
  let (minute, _, cs) ← digits? 2 2 (← char? ':' cs)
  let (second, _, cs) ← digits? 2 2 (← char? ':' cs)
  let cs := match cs with
    | '.' :: cs => cs.dropWhile Char.isDigit
    | _ => cs
  match cs with
  | [] => return ⟨hour, minute, second, none⟩
  | _ =>
    let zoned := skipBlank cs
    if zoned = [] then none else return ⟨hour, minute, second, ← zone? zoned⟩

/-- The parts of a text that has the form of a time stamp. -/
def read? (cs : List Char) : Option Timestamp := do
  let (year, _, cs) ← digits? 4 4 cs
  let (month, m, cs) ← digits? 1 2 (← char? '-' cs)
  let (day, d, cs) ← digits? 1 2 (← char? '-' cs)
  let full := m == 2 && d == 2
  match cs with
  | [] => return ⟨year, month, day, none, full⟩
  | c :: more =>
    if c = 'T' || c = 't' then return ⟨year, month, day, some (← time? more), full⟩
    else if c = ' ' || c = '\t' then
      return ⟨year, month, day, some (← time? (skipBlank more)), full⟩
    else none

/-- A plain scalar in this form is a time stamp: a date alone must be written in full. -/
def isPlain (t : Timestamp) : Bool := t.time.isSome || t.full

/-- The year has a 29th of February. -/
def isLeap (year : Nat) : Bool := year % 4 = 0 && (year % 100 ≠ 0 || year % 400 = 0)

def daysIn (year month : Nat) : Nat :=
  if month = 2 then (if isLeap year then 29 else 28)
  else if month = 4 || month = 6 || month = 9 || month = 11 then 30
  else 31

/-- There is such a day and time. The time zone is looked at first. -/
def check (t : Timestamp) : Except ReadFault Unit := do
  if let some zone := t.time.bind TimeOfDay.zone then
    if 24 * 60 ≤ zone.natAbs then throw (.badOffset (60 * zone))
  if t.year = 0 then throw (.badYear 0)
  if t.month = 0 || 12 < t.month then throw .badMonth
  if t.day = 0 || daysIn t.year t.month < t.day then throw .badDay
  if let some time := t.time then
    if 23 < time.hour then throw .badHour
    if 59 < time.minute then throw .badMinute
    if 59 < time.second then throw .badSecond

end Timestamp

end SchemaNaming.Config.Yaml
