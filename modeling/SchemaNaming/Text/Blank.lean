/-!
# Blank characters and trimming

Values are read as *unset* when their text is blank, handler names must not be blank, and a
recorded identifier never is. All three questions go through one character class:

* `isBlank` — the Unicode white space characters together with the four information
  separators U+001C to U+001F;
* `trim` — a text without the blanks at its two ends.

Both work on `List Char`; `trimBlank` and `isBlankText` carry them to strings.
-/

namespace SchemaNaming.Text

/-- Unicode white space, and the information separators U+001C to U+001F. -/
def isBlank (c : Char) : Bool :=
  let n := c.toNat
  (9 ≤ n && n ≤ 13) || (28 ≤ n && n ≤ 32) || n == 0x85 || n == 0xA0 || n == 0x1680 ||
    (0x2000 ≤ n && n ≤ 0x200A) || n == 0x2028 || n == 0x2029 || n == 0x202F || n == 0x205F ||
    n == 0x3000

/-- `cs` without its blanks in front. -/
def trimLeft (cs : List Char) : List Char := cs.dropWhile isBlank

/-- `cs` without its blanks at the back. -/
def trimRight (cs : List Char) : List Char := (trimLeft cs.reverse).reverse

/-- `cs` without the blanks at its ends. -/
def trim (cs : List Char) : List Char := trimRight (trimLeft cs)

end SchemaNaming.Text

namespace SchemaNaming

/-- The text without the blanks at its ends. -/
def trimBlank (s : String) : String := String.ofList (Text.trim s.toList)

/-- A text is blank when it has no character outside `Text.isBlank`. -/
def isBlankText (s : String) : Bool := s.toList.all Text.isBlank

end SchemaNaming
