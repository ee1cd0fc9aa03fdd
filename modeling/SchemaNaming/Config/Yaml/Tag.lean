import SchemaNaming.Config.Yaml.Timestamp

/-!
# Tags

A tag names the type of a node. A plain scalar without a tag gets one by its form.

* `Tag` — the tags of the standard types;
* `Tag.ofPlain` — the tag of a plain scalar.
-/

namespace SchemaNaming.Config.Yaml

namespace Tag

/-- What the tags of the standard types begin with. -/
def standard : String := "tag:yaml.org,2002:"

def null : String := standard ++ "null"
def bool : String := standard ++ "bool"
def int : String := standard ++ "int"
def float : String := standard ++ "float"
def binary : String := standard ++ "binary"
def timestamp : String := standard ++ "timestamp"
def str : String := standard ++ "str"
def seq : String := standard ++ "seq"
def map : String := standard ++ "map"
def set : String := standard ++ "set"
def omap : String := standard ++ "omap"
def pairs : String := standard ++ "pairs"
def merge : String := standard ++ "merge"
def value : String := standard ++ "value"
def indicator : String := standard ++ "yaml"

/-- The words for the truth values, in lower case. -/
def boolWords : List String := ["yes", "no", "true", "false", "on", "off"]

/-- The spellings of a word in lower case, capitalised, and in upper case. -/
def spellings (w : String) : List String := [w, w.capitalize, w.map Char.toUpper]

/-- The text is one of the spellings of one of the words. -/
def isSpelling (words : List String) (cs : List Char) : Bool :=
  (words.flatMap spellings).contains (String.ofList cs)

def unsigned (cs : List Char) : List Char :=
  match cs with
  | c :: more => if c = '-' || c = '+' then more else cs
  | [] => []

/-- A digit or an underscore. -/
def isLoose (c : Char) : Bool := c.isDigit || c = '_'

/-- A place of a number in base 60 behind the first. -/
def isPlace : List Char → Bool
  | [a] => a.isDigit
  | [a, b] => '0' ≤ a && a ≤ '5' && b.isDigit
  | _ => false

/-- A digit, then digits and underscores, then at least one place in base 60. -/
def isBase60 (cs : List Char) : Bool :=
  match cs.splitOn ':' with
  | first :: place :: places =>
    first.head?.any Char.isDigit && first.all isLoose && (place :: places).all isPlace
  | _ => false

/-- The plain scalar is an integer. -/
def isInt (cs : List Char) : Bool :=
  match unsigned cs with
  | '0' :: 'b' :: ds => ds ≠ [] && ds.all fun c => c = '0' || c = '1' || c = '_'
  | '0' :: 'x' :: ds =>
    ds ≠ [] && ds.all fun c => isLoose c || ('a' ≤ c && c ≤ 'f') || ('A' ≤ c && c ≤ 'F')
  | '0' :: ds => ds.all fun c => ('0' ≤ c && c ≤ '7') || c = '_'
  | c :: cs => c.isDigit && (cs.all isLoose || isBase60 (c :: cs))
  | [] => false

/-- An exponent, which must have a sign, or nothing. -/
def isExponent : List Char → Bool
  | [] => true
  | e :: s :: ds =>
    (e = 'e' || e = 'E') && (s = '-' || s = '+') && ds ≠ [] && ds.all Char.isDigit
  | _ => false

/-- A point with digits before it, perhaps digits after it, and perhaps an exponent. -/
def isPointed (cs : List Char) : Bool :=
  cs.head?.any Char.isDigit &&
    match cs.dropWhile isLoose with
    | '.' :: more => isExponent (more.dropWhile isLoose)
    | _ => false

/-- A point with a digit after it, perhaps more, and perhaps an exponent. -/
def isFraction : List Char → Bool
  | '.' :: d :: more => d.isDigit && isExponent (more.dropWhile isLoose)
  | _ => false

/-- A number in base 60 with a point behind it, and perhaps digits after that. -/
def isBase60Pointed (cs : List Char) : Bool :=
  let whole := cs.takeWhile (· ≠ '.')
  match cs.dropWhile (· ≠ '.') with
  | '.' :: more => isBase60 whole && more.all isLoose
  | _ => false

/-- The plain scalar is a floating-point number. -/
def isFloat (cs : List Char) : Bool :=
  let body := unsigned cs
  isPointed body || isFraction cs || isBase60Pointed body ||
    [".inf", ".Inf", ".INF"].contains (String.ofList body) ||
    [".nan", ".NaN", ".NAN"].contains (String.ofList cs)

/-- The text without a line feed at its end. -/
def dropLastBreak (cs : List Char) : List Char :=
  if cs.getLast? = some '\n' then cs.dropLast else cs

/-- The tag of a plain scalar. A scalar in another notation gets it too where its own tag leaves the
choice open; so the marks of tags, anchors and aliases have a tag of their own, and a line feed at
the end does not count, although it does not stand for an absent value either. -/
def ofPlain (cs : List Char) : String :=
  let word := dropLastBreak cs
  if cs = [] || word = ['~'] || isSpelling ["null"] word then null
  else if isSpelling boolWords word then bool
  else if isFloat word then float
  else if isInt word then int
  else if word = ['<', '<'] then merge
  else if word = ['='] then value
  else if (Timestamp.read? word).any Timestamp.isPlain then timestamp
  else if [['!'], ['&'], ['*']].contains word then indicator
  else str

end Tag

end SchemaNaming.Config.Yaml
