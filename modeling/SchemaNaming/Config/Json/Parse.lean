import SchemaNaming.Config.Json.Token

/-!
# Data of a JSON text

The tokens of a JSON text drive a machine with a stack of the containers that are still open. One
token is one step, so the run over a text is a fold over its tokens.

* `Frame` — a container that is still open;
* `Stage` — what the machine expects next;
* `Machine.step` — the step for one token;
* `parse` — the data of a text.

An integer with too many digits is a fault where a value may stand. Anything else that does not
fit is malformed.
-/

namespace SchemaNaming.Config.Json

/-- A container that is still open, with its members so far, the last one first. -/
inductive Frame where
  | array (items : List Data)
  | object (entries : List (Data × Data)) (key : Data)

/-- What is expected next. -/
inductive Stage where
  | value
  /-- A value, or the end of an array without members. -/
  | firstItem
  | key (entries : List (Data × Data))
  /-- A key, or the end of an object without members. -/
  | firstKey
  | colon
  /-- What may follow a value. -/
  | after (value : Data)

/-- The machine between two tokens. -/
structure Machine where
  stack : List Frame := []
  stage : Stage := .value

/-- The data that a text token stands for. -/
def ofText : Option String → Data
  | some s => .text s
  | none => .illFormed

namespace Machine

/-- Begins a value with the token. -/
def begin (stack : List Frame) : Token → Except Failure Machine
  | .text s => .ok ⟨stack, .after (ofText s)⟩
  | .null => .ok ⟨stack, .after .null⟩
  | .bool b => .ok ⟨stack, .after (.bool b)⟩
  | .number => .ok ⟨stack, .after .number⟩
  | .overlong n => .error (.fault (.tooManyDigits n))
  | .openBracket => .ok ⟨.array [] :: stack, .firstItem⟩
  | .openBrace => .ok ⟨stack, .firstKey⟩
  | _ => .error .malformed

/-- Goes on after the value `v` inside the container `top`. -/
def proceed (top : Frame) (stack : List Frame) (v : Data) : Token → Except Failure Machine
  | .comma =>
    match top with
    | .array items => .ok ⟨.array (v :: items) :: stack, .value⟩
    | .object entries key => .ok ⟨stack, .key ((key, v) :: entries)⟩
  | .closeBracket =>
    match top with
    | .array items => .ok ⟨stack, .after (.sequence (v :: items).reverse)⟩
    | .object .. => .error .malformed
  | .closeBrace =>
    match top with
    | .object entries key => .ok ⟨stack, .after (.mapping ((key, v) :: entries).reverse)⟩
    | .array _ => .error .malformed
  | _ => .error .malformed

def step (m : Machine) (t : Token) : Except Failure Machine :=
  match m.stage, t with
  | .value, t => begin m.stack t
  | .firstItem, .closeBracket =>
    match m.stack with
    | .array items :: stack => .ok ⟨stack, .after (.sequence items)⟩
    | _ => .error .malformed
  | .firstItem, t => begin m.stack t
  | .firstKey, .closeBrace => .ok ⟨m.stack, .after (.mapping [])⟩
  | .firstKey, .text s => .ok ⟨.object [] (ofText s) :: m.stack, .colon⟩
  | .key entries, .text s => .ok ⟨.object entries (ofText s) :: m.stack, .colon⟩
  | .colon, .colon => .ok ⟨m.stack, .value⟩
  | .after v, t =>
    match m.stack with
    | top :: stack => proceed top stack v t
    | [] => .error .malformed
  | _, _ => .error .malformed

/-- The data that the machine has read, if it may stop. -/
def result (m : Machine) : Except Failure Data :=
  match m.stage, m.stack with
  | .after v, [] => .ok v
  | _, _ => .error .malformed

def run (m : Machine) (ts : List Token) : Except Failure Machine := ts.foldlM step m

end Machine

/-- The data of a JSON text. -/
def parse (cs : List Char) : Except Failure Data := do
  (← Machine.run {} (Token.list cs)).result

end SchemaNaming.Config.Json
