import Annals.Json.Outline
import Annals.Json.Skip
/-!
# Reading JSON texts

`Json.parse?` reads a whole text: one value with blanks around it and nothing else. Arrays and
objects nest at most `maxDepth` deep. Members of one name are all kept, in document order;
`Json.distinct` merges them.

A reader that wants only some members says so by an `Outline`; the others are passed over and are no
part of the value.

Reading a value is a recursion on the depth that is left; the items of one array and the members
of one object are a recursion on a bound for their number, which the length of the text gives.
-/

namespace Annals.Json

/-! ## Strings -/

/-- The character after `\u`: one code unit, or two that form a surrogate pair. A surrogate
without its partner is refused. -/
def unicodeEscape? (cs : List Char) : Option (Char × List Char) := do
  let (first, rest) ← hexUnit? cs
  if 0xD800 ≤ first ∧ first ≤ 0xDBFF then
    match rest with
    | '\\' :: 'u' :: rest =>
      let (second, rest) ← hexUnit? rest
      if 0xDC00 ≤ second ∧ second ≤ 0xDFFF then
        return (Char.ofNat ((first - 0xD800) * 0x400 + (second - 0xDC00) + 0x10000), rest)
      else none
    | _ => none
  else if 0xDC00 ≤ first ∧ first ≤ 0xDFFF then none
  else return (Char.ofNat first, rest)

/-- The rest of a string whose opening quote has been read. The bound is met by the length of the
text, since each step reads a character. -/
def stringRest : Nat → List Char → Option (List Char × List Char)
  | 0, _ => none
  | fuel + 1, cs =>
    match cs with
    | [] => none
    | '"' :: rest => some ([], rest)
    | '\\' :: 'u' :: rest => do
      let (c, rest) ← unicodeEscape? rest
      let (text, rest) ← stringRest fuel rest
      return (c :: text, rest)
    | '\\' :: c :: rest => do
      let c ← shortEscape? c
      let (text, rest) ← stringRest fuel rest
      return (c :: text, rest)
    | c :: rest =>
      if c.toNat < 32 then none
      else do
        let (text, rest) ← stringRest fuel rest
        return (c :: text, rest)

/-- A string whose opening quote has been read. -/
def string? (cs : List Char) : Option (String × List Char) :=
  (stringRest (cs.length + 1) cs).map fun (text, rest) => (String.ofList text, rest)

/-! ## Values -/

/-- Items after the opening bracket, with at least one to come; `item?` reads one value. -/
def itemsRest (item? : Outline → List Char → Option (Json × List Char)) :
    Nat → Outline → List Char → Option (List Json × List Char)
  | 0, _, _ => none
  | fuel + 1, outline, cs => do
    let (item, rest) ← item? outline.first (skipBlanks cs)
    match skipBlanks rest with
    | ',' :: rest =>
      let (items, rest) ← itemsRest item? fuel outline.later rest
      return (item :: items, rest)
    | ']' :: rest => return ([item], rest)
    | _ => none

/-- The member of a name, of which the value is to come: read by `value?` in the outline that is
wanted, or left out when none is wanted. -/
def memberRest (value? : Outline → List Char → Option (Json × List Char)) (key : String) :
    Option Outline → List Char → Option (List (String × Json) × List Char)
  | some outline, cs => (value? outline cs).map fun (value, rest) => ([(key, value)], rest)
  | none, cs => (skipValue? cs).map fun rest => ([], rest)

/-- Members after the opening brace, with at least one to come; `value?` reads one value. -/
def membersRest (value? : Outline → List Char → Option (Json × List Char)) :
    Nat → Outline → List Char → Option (List (String × Json) × List Char)
  | 0, _, _ => none
  | fuel + 1, outline, cs =>
    match skipBlanks cs with
    | '"' :: rest => do
      let (key, rest) ← string? rest
      match skipBlanks rest with
      | ':' :: rest =>
        let (found, rest) ← memberRest value? key (outline.member? key) (skipBlanks rest)
        match skipBlanks rest with
        | ',' :: rest =>
          let (members, rest) ← membersRest value? fuel outline rest
          return (found ++ members, rest)
        | '}' :: rest => return (found, rest)
        | _ => none
      | _ => none
    | _ => none

/-- The value at the front of a text that starts without blanks, as far as the outline asks for it.
Arrays and objects are read only while the depth lasts. -/
def value? : Nat → Outline → List Char → Option (Json × List Char)
  | _, _, '"' :: rest => (string? rest).map fun (s, rest) => (.str s, rest)
  | 0, _, '[' :: _ => none
  | 0, _, '{' :: _ => none
  | depth + 1, outline, '[' :: rest =>
    match skipBlanks rest with
    | ']' :: rest => some (.arr [], rest)
    | rest => (itemsRest (value? depth) (rest.length + 1) outline rest).map fun (items, rest) =>
        (.arr items, rest)
  | depth + 1, outline, '{' :: rest =>
    match skipBlanks rest with
    | '}' :: rest => some (.obj [], rest)
    | rest => (membersRest (value? depth) (rest.length + 1) outline rest).map fun (members, rest) =>
        (.obj members, rest)
  | _, _, 'n' :: rest => (afterWord? "ull".toList rest).map fun rest => (.null, rest)
  | _, _, 't' :: rest => (afterWord? "rue".toList rest).map fun rest => (.bool true, rest)
  | _, _, 'f' :: rest => (afterWord? "alse".toList rest).map fun rest => (.bool false, rest)
  | _, _, cs => number? cs

/-- The deepest nesting of arrays and objects that is read. -/
def maxDepth : Nat := 127

/-- Reads a text that is one JSON value, as far as the outline asks for it. -/
def parse? (text : String) (outline : Outline := .whole) : Option Json := do
  let (value, rest) ← value? maxDepth outline (skipBlanks text.toList)
  if (skipBlanks rest).isEmpty then return value else none

end Annals.Json
