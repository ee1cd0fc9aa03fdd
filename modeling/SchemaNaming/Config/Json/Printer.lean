import SchemaNaming.RunConfig
import SchemaNaming.Text.Quoted

/-!
# The JSON text of a configuration

A configuration is written as an object with its two lists. The text is ASCII: every other character
is written as its UTF-16 code units, each in an escape of four hexadecimal digits.

* `escape` — what is written for a character of a text;
* `printText`, `printTexts` — a text in quotes, and a list of texts;
* `printConfig` — the text of a configuration.
-/

namespace SchemaNaming.Config.Json

def escapeUnit (u : Nat) : List Char := '\\' :: 'u' :: Text.hexDigits 4 u

/-- The letter of a control character's short escape. -/
def shortEscape? (c : Char) : Option Char :=
  if c = '\n' then some 'n'
  else if c = '\r' then some 'r'
  else if c = '\t' then some 't'
  else if c.toNat = 8 then some 'b'
  else if c.toNat = 12 then some 'f'
  else none

/-- What is written for a character: a quote or backslash behind a backslash, other printable ASCII
as it is, the rest as escapes. Beyond U+FFFF these are a pair of surrogates. -/
def escape (c : Char) : List Char :=
  if c = '\x22' || c = '\\' then ['\\', c]
  else if 32 ≤ c.toNat && c.toNat ≤ 126 then [c]
  else match shortEscape? c with
    | some letter => ['\\', letter]
    | none =>
      if c.toNat < 0x10000 then escapeUnit c.toNat
      else
        escapeUnit (0xD800 + (c.toNat - 0x10000) / 0x400) ++
          escapeUnit (0xDC00 + (c.toNat - 0x10000) % 0x400)

def printText (s : String) : List Char := '\x22' :: s.toList.flatMap escape ++ ['\x22']

/-- The texts of a list behind its first, each after a comma and a space. -/
def printMore (ss : List String) : List Char := ss.flatMap fun s => ',' :: ' ' :: printText s

def printTexts : List String → List Char
  | [] => ['[', ']']
  | s :: ss => '[' :: printText s ++ printMore ss ++ [']']

/-- A list of texts, or null where there is none. -/
def printList : Option (List String) → List Char
  | some ss => printTexts ss
  | none => ['n', 'u', 'l', 'l']

def printConfig (c : RunConfig) : List Char :=
  '\x7b' :: printText "enabled" ++ [':', ' '] ++ printList c.enabled ++ [',', ' '] ++
    printText "disabled" ++ [':', ' '] ++ printList c.disabled ++ ['\x7d']

end SchemaNaming.Config.Json
