import Annals.Json.Lexical
import Annals.Json.Number
/-!
# Passing over JSON values

Whoever does not want a value only has to know where it ends. So it is held to the grammar and to
nothing else: a number may have any size, an escape may name half of a surrogate pair, and arrays
and objects may nest as deep as they like.

* `skipValue?`: what follows the value at the front of a text.
-/

namespace Annals.Json

/-- What follows a string whose opening quote has been passed. -/
def skipString? : List Char → Option (List Char)
  | [] => none
  | '"' :: rest => some rest
  | '\\' :: 'u' :: a :: b :: c :: d :: rest =>
    if [a, b, c, d].all fun digit => (hexValue? digit).isSome then skipString? rest else none
  | '\\' :: c :: rest => if (shortEscape? c).isSome then skipString? rest else none
  | c :: rest => if c.toNat < 32 then none else skipString? rest

/-- What follows the items after an opening bracket, with at least one to come; `skip?` passes over
one value. -/
def skipItems (skip? : List Char → Option (List Char)) : Nat → List Char → Option (List Char)
  | 0, _ => none
  | fuel + 1, cs => do
    let rest ← skip? (skipBlanks cs)
    match skipBlanks rest with
    | ',' :: rest => skipItems skip? fuel rest
    | ']' :: rest => some rest
    | _ => none

/-- What follows the members after an opening brace, with at least one to come; `skip?` passes over
one value. -/
def skipMembers (skip? : List Char → Option (List Char)) :
    Nat → List Char → Option (List Char)
  | 0, _ => none
  | fuel + 1, cs =>
    match skipBlanks cs with
    | '"' :: rest => do
      let rest ← skipString? rest
      match skipBlanks rest with
      | ':' :: rest =>
        let rest ← skip? (skipBlanks rest)
        match skipBlanks rest with
        | ',' :: rest => skipMembers skip? fuel rest
        | '}' :: rest => some rest
        | _ => none
      | _ => none
    | _ => none

/-- What follows the value at the front of a text that starts without blanks, if the value nests no
deeper than the bound. -/
def skipWithin? : Nat → List Char → Option (List Char)
  | _, '"' :: rest => skipString? rest
  | 0, '[' :: _ => none
  | 0, '{' :: _ => none
  | depth + 1, '[' :: rest =>
    match skipBlanks rest with
    | ']' :: rest => some rest
    | rest => skipItems (skipWithin? depth) (rest.length + 1) rest
  | depth + 1, '{' :: rest =>
    match skipBlanks rest with
    | '}' :: rest => some rest
    | rest => skipMembers (skipWithin? depth) (rest.length + 1) rest
  | _, 'n' :: rest => afterWord? "ull".toList rest
  | _, 't' :: rest => afterWord? "rue".toList rest
  | _, 'f' :: rest => afterWord? "alse".toList rest
  | _, cs => (scanNumeral cs).map (·.2)

/-- What follows the value at the front of a text that starts without blanks. A text nests no deeper
than it is long. -/
def skipValue? (cs : List Char) : Option (List Char) := skipWithin? cs.length cs

end Annals.Json
