import SchemaNaming.Value.Basic

/-!
# The text of a value

Two texts of a value matter. Its *general text* is what formatting inserts; a list or mapping shows
its members there, texts in quotes. Its *field text* is what a metadata field reads: nothing for
an absent value, lower-case truth values, and numbers in the standalone style.

* `Value.generalText` — the general text;
* `Value.fieldText` — the field text.

Either fails when a foreign value inside fails, and for an integer of more than
`Integer.digitLimit` digits.
-/

namespace SchemaNaming

namespace Date

/-- A number with at least `width` digits. -/
def padded (width n : Nat) : String :=
  let ds := Nat.toDigits 10 n
  String.ofList (List.replicate (width - ds.length) '0' ++ ds)

/-- Year, month and day, joined by hyphens. -/
def text (d : Date) : String := s!"{padded 4 d.year}-{padded 2 d.month}-{padded 2 d.day}"

/-- The date as it stands inside a list. -/
def nestedText (d : Date) : String := s!"datetime.date({d.year}, {d.month}, {d.day})"

end Date

namespace Value

/-- The digits of an integer, unless there are too many. -/
def intText (n : Int) : Except Fault String :=
  if Integer.writable n then .ok (String.ofList (Integer.digits n)) else .error .tooManyDigits

/-- The parts between brackets. -/
def bracketed (left right : String) (parts : List String) : String :=
  left ++ String.intercalate ", " parts ++ right

mutual
/-- The text of a value inside a list or a mapping. -/
def nestedText : Value → Except Fault String
  | null => .ok "None"
  | bool b => .ok (if b then "True" else "False")
  | int n => intText n
  | floating x => .ok (x.render .nested)
  | text s => .ok (quoted s)
  | bytes b => .ok (String.ofList (Text.quoteBytes b))
  | date d => .ok d.nestedText
  | list xs => (nestedTexts xs).map (bracketed "[" "]")
  | tuple xs => (nestedTexts xs).map fun parts => match parts with
    | [part] => "(" ++ part ++ ",)"
    | parts => bracketed "(" ")" parts
  | map es => (entryTexts es).map (bracketed "\x7b" "\x7d")
  | foreign _ answer => answer

def nestedTexts : List Value → Except Fault (List String)
  | [] => .ok []
  | x :: xs => do
    let s ← nestedText x
    let ss ← nestedTexts xs
    return s :: ss

def entryTexts : List (Value × Value) → Except Fault (List String)
  | [] => .ok []
  | (k, v) :: es => do
    let s ← nestedText k
    let t ← nestedText v
    let ss ← entryTexts es
    return (s ++ ": " ++ t) :: ss
end

/-- The text that formatting inserts for the value. -/
def generalText : Value → Except Fault String
  | text s => .ok s
  | date d => .ok d.text
  | v => v.nestedText

/-- The text that a metadata field reads. -/
def fieldText : Value → Except Fault String
  | null => .ok ""
  | text s => .ok s
  | bool b => .ok (if b then "true" else "false")
  | floating x => .ok (x.render .standalone)
  | v => v.generalText

end Value

end SchemaNaming
