import SchemaNaming.Integer
import SchemaNaming.Text.Quoted

/-!
# Faults of reading a configuration

A configuration file that cannot be used is normally reported and ignored. The faults listed here
are the others: those that a caller of the reader gets to see. They come from the bytes of the
file, from the way to it, from scalars that claim a type they do not fit, and from texts that go
deeper than a reader can follow.
-/

namespace SchemaNaming.Config

/-- Why a byte string is no UTF-8 text. -/
inductive DecodeReason where
  | invalidStart
  | invalidContinuation
  | unexpectedEnd
  deriving DecidableEq, Repr

/-- A fault of reading a configuration that is not just reported. -/
inductive ReadFault where
  /-- The `count` bytes from position `start` on, the first of them `byte`, are no UTF-8. -/
  | undecodable (byte : UInt8) (start count : Nat) (reason : DecodeReason)
  | nameTooLong (path : String)
  /-- A directory on the way to the file may not be looked through. -/
  | permissionDenied (path : String)
  | tooManyDigits (count : Nat)
  /-- A scalar read as an integer is none in the base. -/
  | badInteger (base : Nat) (text : List Text.CodePoint)
  /-- A scalar read as a floating-point number is none. -/
  | badFloat (text : List Text.CodePoint)
  /-- A scalar read as a number has no characters. -/
  | emptyNumber
  | tooManyPlaces
  /-- A scalar read as a truth value is none. -/
  | badBool (text : List Text.CodePoint)
  /-- A scalar read as a time stamp is none. -/
  | badTimestamp
  | timestampOfMapping
  | badYear (year : Nat)
  | badMonth
  | badDay
  | badHour
  | badMinute
  | badSecond
  /-- A time zone is a day or more from universal time; the offset is in seconds. -/
  | badOffset (seconds : Int)
  /-- An escape sequence goes beyond the last code point. -/
  | badCodePoint
  /-- An escape sequence goes beyond the machine's integers. -/
  | hugeCodePoint
  /-- A reader went into the text more deeply than it can. -/
  | tooDeep
  deriving DecidableEq, Repr

namespace ReadFault

/-- A span of time as days and seconds, parts that are zero left out. -/
def spanText (seconds : Int) : String :=
  let d := Int.fdiv seconds 86400
  let s := Int.fmod seconds 86400
  let parts := (if d = 0 then [] else [s!"days={d}"]) ++ (if s = 0 then [] else [s!"seconds={s}"])
  "datetime.timedelta(" ++ (if parts = [] then "0" else String.intercalate ", " parts) ++ ")"

def quotedPoints (ps : List Text.CodePoint) : String := String.ofList (Text.quotePoints ps)

/-- Two lower-case hexadecimal digits. -/
def byteText (b : UInt8) : String := String.ofList (Text.hexDigits 2 b.toNat)

def reasonText : DecodeReason → String
  | .invalidStart => "invalid start byte"
  | .invalidContinuation => "invalid continuation byte"
  | .unexpectedEnd => "unexpected end of data"

/-- The wording of the fault. -/
def message : ReadFault → String
  | undecodable b start count reason =>
    (if count = 1 then s!"'utf-8' codec can't decode byte 0x{byteText b} in position {start}: "
      else s!"'utf-8' codec can't decode bytes in position {start}-{start + count - 1}: ") ++
      reasonText reason
  | nameTooLong p => "[Errno 36] File name too long: " ++ quoted p
  | permissionDenied p => "[Errno 13] Permission denied: " ++ quoted p
  | tooManyDigits n =>
    s!"Exceeds the limit ({Integer.digitLimit} digits) for integer string conversion: " ++
      s!"value has {n} digits; use sys.set_int_max_str_digits() to increase the limit"
  | badInteger base t =>
    s!"invalid literal for int() with base {base}: " ++
      String.ofList ((Text.quotePoints t).take 200)
  | badFloat t => "could not convert string to float: " ++ quotedPoints t
  | emptyNumber => "string index out of range"
  | tooManyPlaces => "int too large to convert to float"
  | badBool t => quotedPoints t
  | badTimestamp => "'NoneType' object has no attribute 'groupdict'"
  | timestampOfMapping => "expected string or bytes-like object, got 'list'"
  | badYear y => s!"year {y} is out of range"
  | badMonth => "month must be in 1..12"
  | badDay => "day is out of range for month"
  | badHour => "hour must be in 0..23"
  | badMinute => "minute must be in 0..59"
  | badSecond => "second must be in 0..59"
  | badOffset s =>
    "offset must be a timedelta strictly between -timedelta(hours=24) and timedelta(hours=24), " ++
      "not " ++ spanText s ++ "."
  | badCodePoint => "chr() arg not in range(0x110000)"
  | hugeCodePoint => "Python int too large to convert to C int"
  | tooDeep => "maximum recursion depth exceeded"

end ReadFault

end SchemaNaming.Config
