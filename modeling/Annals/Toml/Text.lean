import Annals.Json.Lexical
/-!
# Strings, keys and blanks of TOML

Characters are read from a list; a reader returns what it read and what is left, or nothing when
the text does not fit.
-/

namespace Annals.Toml

/-! ## Blanks and comments -/

/-- A blank inside a line. -/
def isBlank (c : Char) : Bool := c = ' ' || c = '\t'

/-- Drops blanks from the front. -/
def skipBlanks (cs : List Char) : List Char := cs.dropWhile isBlank

/-- What follows a line break. -/
def afterNewline? : List Char → Option (List Char)
  | '\n' :: rest => some rest
  | '\r' :: '\n' :: rest => some rest
  | _ => none

/-- A character that may stand in a string or a comment: a tab, or anything but a control. -/
def isPlain (c : Char) : Bool := c = '\t' || (32 ≤ c.toNat && c.toNat ≠ 127)

/-- Drops a comment; its line break stays. -/
def skipComment (cs : List Char) : List Char :=
  match cs with
  | '#' :: rest => rest.dropWhile isPlain
  | _ => cs

/-- The end of a line: blanks, a comment, and a line break or the end of the text. -/
def lineEnd? (cs : List Char) : Option (List Char) :=
  match skipComment (skipBlanks cs) with
  | [] => some []
  | rest => afterNewline? rest

/-- Drops blanks, comments and line breaks from the front; a comment needs a line break behind it.
The bound is met by the length of the text. -/
def skipLines : Nat → List Char → List Char
  | 0, cs => cs
  | fuel + 1, cs =>
    let cs := skipBlanks cs
    match afterNewline? (skipComment cs) with
    | some rest => skipLines fuel rest
    | none => cs

/-! ## Strings -/

/-- The character of `digits` hexadecimal digits; a surrogate or a number beyond the last code
point is none. -/
def codePoint? (digits : Nat) (cs : List Char) : Option (Char × List Char) := do
  let head := cs.take digits
  if head.length < digits then none
  let n ← head.foldlM (fun acc c => (Json.hexValue? c).map (acc * 16 + ·)) 0
  if n < 0xD800 ∨ (0xE000 ≤ n ∧ n < 0x110000) then return (Char.ofNat n, cs.drop digits)
  else none

/-- The character of an escape whose backslash has been read. -/
def escape? : List Char → Option (Char × List Char)
  | 'b' :: rest => some ('\x08', rest)
  | 't' :: rest => some ('\t', rest)
  | 'n' :: rest => some ('\n', rest)
  | 'f' :: rest => some ('\x0c', rest)
  | 'r' :: rest => some ('\r', rest)
  | '"' :: rest => some ('"', rest)
  | '\\' :: rest => some ('\\', rest)
  | 'u' :: rest => codePoint? 4 rest
  | 'U' :: rest => codePoint? 8 rest
  | _ => none

/-- The rest of a one-line string with escapes, after its opening quote. -/
def basicRest : Nat → List Char → Option (List Char × List Char)
  | 0, _ => none
  | _, [] => none
  | _, '"' :: rest => some ([], rest)
  | fuel + 1, '\\' :: rest => do
    let (c, rest) ← escape? rest
    let (text, rest) ← basicRest fuel rest
    return (c :: text, rest)
  | fuel + 1, c :: rest =>
    if isPlain c then do
      let (text, rest) ← basicRest fuel rest
      return (c :: text, rest)
    else none

/-- The rest of a one-line string without escapes, after its opening quote. -/
def literalRest (cs : List Char) : Option (List Char × List Char) :=
  let text := cs.takeWhile fun c => isPlain c && c ≠ '\''
  match cs.drop text.length with
  | '\'' :: rest => some (text, rest)
  | _ => none

/-- Whether the string ends here, at a run of its quotes: three close it, and up to two more in
front of them belong to its text. -/
def closing? (quote : Char) (cs : List Char) : Option (List Char × List Char) :=
  let run := (cs.takeWhile (· = quote)).length
  if 3 ≤ run ∧ run ≤ 5 then some (List.replicate (run - 3) quote, cs.drop run) else none

/-- Drops blanks and line breaks from the front. -/
def skipGaps : List Char → List Char
  | '\r' :: '\n' :: rest => skipGaps rest
  | c :: rest => if isBlank c || c = '\n' then skipGaps rest else c :: rest
  | [] => []

/-- The rest of a string over several lines, after its opening quotes. With `escapes`, a backslash
escapes a character or, at the end of a line, drops the blanks and line breaks that follow. -/
def multilineRest (quote : Char) (escapes : Bool) :
    Nat → List Char → Option (List Char × List Char)
  | 0, _ => none
  | _, [] => none
  | fuel + 1, c :: rest =>
    match closing? quote (c :: rest) with
    | some closed => some closed
    | none =>
      if c = quote then
        if ((c :: rest).takeWhile (· = quote)).length < 3 then do
          let (text, rest) ← multilineRest quote escapes fuel rest
          return (c :: text, rest)
        else none
      else if escapes && c = '\\' then
        match afterNewline? (skipBlanks rest) with
        | some next => multilineRest quote escapes fuel (skipGaps next)
        | none => do
          let (c, rest) ← escape? rest
          let (text, rest) ← multilineRest quote escapes fuel rest
          return (c :: text, rest)
      else
        match afterNewline? (c :: rest) with
        | some next => do
          let (text, rest) ← multilineRest quote escapes fuel next
          return ('\n' :: text, rest)
        | none =>
          if isPlain c then do
            let (text, rest) ← multilineRest quote escapes fuel rest
            return (c :: text, rest)
          else none

/-- A line break right after the opening quotes does not count. -/
def multiline (quote : Char) (escapes : Bool) (cs : List Char) :
    Option (List Char × List Char) :=
  multilineRest quote escapes (cs.length + 1) ((afterNewline? cs).getD cs)

/-- A string of one of the four kinds. -/
def string? (cs : List Char) : Option (String × List Char) :=
  (match cs with
    | '"' :: '"' :: '"' :: rest => multiline '"' true rest
    | '\'' :: '\'' :: '\'' :: rest => multiline '\'' false rest
    | '"' :: rest => basicRest (rest.length + 1) rest
    | '\'' :: rest => literalRest rest
    | _ => none).map fun (text, rest) => (String.ofList text, rest)

/-! ## Keys -/

/-- A character of a key that stands without quotes. -/
def isBare (c : Char) : Bool :=
  ('a' ≤ c && c ≤ 'z') || ('A' ≤ c && c ≤ 'Z') || ('0' ≤ c && c ≤ '9') ||
    c = '_' || c = '-'

/-- One part of a key: bare, or a one-line string. -/
def simpleKey? (cs : List Char) : Option (String × List Char) :=
  match cs with
  | '"' :: rest =>
    (basicRest (rest.length + 1) rest).map fun (text, rest) => (String.ofList text, rest)
  | '\'' :: rest => (literalRest rest).map fun (text, rest) => (String.ofList text, rest)
  | _ =>
    match cs.takeWhile isBare with
    | [] => none
    | text => some (String.ofList text, cs.dropWhile isBare)

/-- The parts of a key with points between them; blanks around the points do not count. -/
def dottedKey : Nat → List Char → Option (List String × List Char)
  | 0, _ => none
  | fuel + 1, cs => do
    let (part, rest) ← simpleKey? (skipBlanks cs)
    match skipBlanks rest with
    | '.' :: rest =>
      let (parts, rest) ← dottedKey fuel rest
      return (part :: parts, rest)
    | rest => return ([part], rest)

/-- The number of parts from which on a key is too long, and of levels from which on values nest
too deeply. -/
def depthLimit : Nat := 80

/-- A key with its blanks. -/
def key? (cs : List Char) : Option (List String × List Char) :=
  (dottedKey (cs.length + 1) cs).filter fun (parts, _) => parts.length < depthLimit

end Annals.Toml
