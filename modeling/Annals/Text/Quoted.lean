import Annals.Text.Printable
/-!
# Quoted texts

A text between quotes, for use in messages: quotes, backslashes and the common control characters
are escaped by a letter, other characters that do not show by their code point.
-/

namespace Annals.Text

/-- A character's code point in lower-case hexadecimal digits. -/
def codePoint (c : Char) : List Char := Nat.toDigits 16 c.toNat

/-- A character inside quotes. -/
def quoteChar (c : Char) : List Char :=
  if c = '\x00' then ['\\', '0']
  else if c = '\t' then ['\\', 't']
  else if c = '\r' then ['\\', 'r']
  else if c = '\n' then ['\\', 'n']
  else if c = '\\' then ['\\', '\\']
  else if c = '"' then ['\\', '"']
  else if isCombining c || !isPrintable c then
    ['\\', 'u', '{'] ++ codePoint c ++ ['}']
  else [c]

/-- The text between quotes. -/
def quoted (s : String) : String :=
  String.ofList ('"' :: (s.toList.flatMap quoteChar ++ ['"']))

end Annals.Text
