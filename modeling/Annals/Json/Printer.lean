import Annals.Json.Basic
import Annals.Text.Digits
import Annals.Decimal.Layout
/-!
# Writing JSON

* `Json.compact`: no blanks at all, so a text without line breaks.
* `Json.pretty`: one member or item a line, indented by two spaces a level; an empty array or
  object stays on its line.

In strings only the quote, the backslash and the control characters below U+0020 are escaped.
Doubles have an exponent below `10 ^ -5` and from `10 ^ 16` on.
-/

namespace Annals.Json

/-! ## Strings -/

/-- A lower-case hexadecimal digit. -/
def hexDigit (n : Nat) : Char := (Nat.toDigits 16 (n % 16)).headD '0'

/-- A character as it stands in a string. -/
def escape (c : Char) : List Char :=
  if c = '"' then ['\\', '"']
  else if c = '\\' then ['\\', '\\']
  else if c = '\x08' then ['\\', 'b']
  else if c = '\t' then ['\\', 't']
  else if c = '\n' then ['\\', 'n']
  else if c = '\x0c' then ['\\', 'f']
  else if c = '\r' then ['\\', 'r']
  else if c.toNat < 32 then ['\\', 'u', '0', '0', hexDigit (c.toNat / 16), hexDigit c.toNat]
  else [c]

/-- A string between quotes. -/
def strChars (s : String) : List Char := '"' :: (s.toList.flatMap escape ++ ['"'])

/-! ## Numbers -/

/-- A double keeps a fraction or an exponent, so that it reads back as one. Of two equally near
decimals the one with the even last digit is written. -/
def floatLayout : Decimal.Layout := { tie := .even, bounds := some (-5, 15), showsFraction := true }

/-- A double; the values that JSON has no numeral for are written as `null`. -/
def floatChars (x : Float) : List Char :=
  if x.isFinite then (floatLayout.ofFloat x).toList else "null".toList

/-! ## Compact form -/

mutual

/-- The characters of the compact form. -/
def compactChars : Json → List Char
  | .null => "null".toList
  | .bool true => "true".toList
  | .bool false => "false".toList
  | .int n => Text.intChars n
  | .float x => floatChars x
  | .str s => strChars s
  | .arr items => '[' :: (compactItems items ++ [']'])
  | .obj members => '{' :: (compactMembers members ++ ['}'])

/-- Items with commas between them. -/
def compactItems : List Json → List Char
  | [] => []
  | [item] => compactChars item
  | item :: rest => compactChars item ++ ',' :: compactItems rest

/-- Members with commas between them. -/
def compactMembers : List (String × Json) → List Char
  | [] => []
  | [(key, value)] => strChars key ++ ':' :: compactChars value
  | (key, value) :: rest =>
    strChars key ++ ':' :: (compactChars value ++ ',' :: compactMembers rest)

end

/-- The value on one line without blanks. -/
def compact (j : Json) : String := String.ofList j.compactChars

/-! ## Indented form -/

/-- A line break and the indentation of a level. -/
def newline (level : Nat) : List Char := '\n' :: List.replicate (2 * level) ' '

mutual

/-- The characters of the indented form of a value that starts on a line of the given level. -/
def prettyChars (level : Nat) : Json → List Char
  | .arr [] => ['[', ']']
  | .obj [] => ['{', '}']
  | .arr (item :: rest) =>
    '[' :: (newline (level + 1) ++ prettyItems (level + 1) (item :: rest) ++ newline level ++ [']'])
  | .obj (m :: rest) =>
    '{' :: (newline (level + 1) ++ prettyMembers (level + 1) (m :: rest) ++ newline level ++ ['}'])
  | .null => "null".toList
  | .bool true => "true".toList
  | .bool false => "false".toList
  | .int n => Text.intChars n
  | .float x => floatChars x
  | .str s => strChars s

/-- Items on lines of their own. -/
def prettyItems (level : Nat) : List Json → List Char
  | [] => []
  | [item] => prettyChars level item
  | item :: rest => prettyChars level item ++ ',' :: (newline level ++ prettyItems level rest)

/-- Members on lines of their own. -/
def prettyMembers (level : Nat) : List (String × Json) → List Char
  | [] => []
  | [(key, value)] => strChars key ++ ':' :: ' ' :: prettyChars level value
  | (key, value) :: rest =>
    strChars key ++ ':' :: ' ' ::
      (prettyChars level value ++ ',' :: (newline level ++ prettyMembers level rest))

end

/-- The value over several lines. -/
def pretty (j : Json) : String := String.ofList (j.prettyChars 0)

end Annals.Json
