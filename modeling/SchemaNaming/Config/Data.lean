import SchemaNaming.Config.Fault

/-!
# The data of a configuration file

What a JSON or YAML text says, as far as a configuration depends on it. A configuration has no
place for numbers and time stamps, so only their being there is kept. It is read three levels
deep — the document, its lists, their members — and what lies deeper may stay unread.

* `Data` — the data;
* `Data.get?` — the value under a text key of a mapping, the last one where it is set repeatedly;
* `Failure` — why a text gives no data.
-/

namespace SchemaNaming.Config

/-- What a text says. -/
inductive Data where
  | null
  | bool (b : Bool)
  | number
  | text (s : String)
  /-- A text that escapes of lone surrogates keep from being Unicode. -/
  | illFormed
  | bytes (b : List UInt8)
  | timestamp
  | sequence (xs : List Data)
  /-- A sequence without repetitions. -/
  | set (xs : List Data)
  | mapping (es : List (Data × Data))
  /-- Something not looked into. -/
  | unread
  deriving Inhabited

namespace Data

/-- The data are the text `k`. -/
def isText (k : String) : Data → Bool
  | text s => s = k
  | _ => false

/-- The value under the text `k` in a list of entries; a later entry replaces an earlier one. -/
def get? (es : List (Data × Data)) (k : String) : Option Data :=
  (es.reverse.find? fun e => e.1.isText k).map Prod.snd

end Data

/-- Why a text gives no data. -/
inductive Failure where
  /-- It breaks the rules of the notation. -/
  | malformed
  /-- A fault that the caller gets to see. -/
  | fault (f : ReadFault)
  deriving DecidableEq, Repr

end SchemaNaming.Config
