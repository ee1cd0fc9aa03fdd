import SchemaNaming.Config.Fault

/-!
# Faults

What can go wrong while a document is handled. A fault says its cause; `Fault.message` words it.

A fault is *contained* when the dispatcher turns it into a warning and goes on with the next
handler. Only a request to end the run — `Kind.exit`, `Kind.interrupt` — is not.
-/

namespace SchemaNaming

/-- What a handler, or the text conversion of a foreign value, signals. -/
inductive Kind where
  | runtime
  | value
  | key
  | type
  | exit
  | interrupt
  deriving DecidableEq, Repr

/-- A reason for which an operation fails. -/
inductive Fault where
  /-- Signalled from outside the library. -/
  | raised (kind : Kind) (message : String)
  /-- A value of this type cannot be a mapping's key. -/
  | unhashable (type : String)
  /-- A value of this type offers no such operation. -/
  | lacks (type member : String)
  /-- A value of this type has no members to look through. -/
  | notIterable (type : String)
  /-- A text was looked for among bytes. -/
  | bytesExpected
  /-- Bytes were asked whether they start with a text. -/
  | startOfBytes
  | tooManyDigits
  /-- A mapping has no such key. The key stands in the wording as it is `shown`. -/
  | missingKey (shown : String)
  /-- A mapping grew or shrank while it was walked. -/
  | sizeChanged
  /-- A mapping got new keys in place of old ones while it was walked. -/
  | keysChanged
  | outOfRange
  /-- A configuration cannot be read. -/
  | reading (fault : Config.ReadFault)
  deriving DecidableEq, Repr

namespace Fault

/-- The dispatcher stops the fault at the handler that caused it. -/
def contained : Fault → Bool
  | raised .exit _ => false
  | raised .interrupt _ => false
  | _ => true

/-- The wording of the fault. -/
def message : Fault → String
  | raised .key m => quoted m
  | raised _ m => m
  | unhashable t => s!"unhashable type: '{t}'"
  | lacks t a => s!"'{t}' object has no attribute '{a}'"
  | notIterable t => s!"argument of type '{t}' is not iterable"
  | bytesExpected => "a bytes-like object is required, not 'str'"
  | startOfBytes => "startswith first arg must be bytes or a tuple of bytes, not str"
  | tooManyDigits =>
    s!"Exceeds the limit ({Integer.digitLimit} digits) for integer string conversion; " ++
      "use sys.set_int_max_str_digits() to increase the limit"
  | missingKey shown => shown
  | sizeChanged => "dictionary changed size during iteration"
  | keysChanged => "dictionary keys changed during iteration"
  | outOfRange => "list index out of range"
  | reading f => f.message

end Fault

end SchemaNaming
