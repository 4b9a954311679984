import Annals.Json.Basic
import Annals.Json.Lexical
import Annals.Text.Digits
/-!
# Numbers and dates of TOML

* `integer?`: decimal with a sign, or hexadecimal, octal or binary without one; 64 bits with sign.
* `float?`: a decimal with fraction or exponent, rounded to the nearest double, or an infinity or
  NaN by name.
* `dateTime?`: a date, a time, or both, checked against the calendar.

Digits may be separated by single underscores.
-/

namespace Annals.Toml

/-! ## Digits -/

/-- Digits of a class with single underscores between them, without the underscores. The first
character has to be a digit, and so has the one after an underscore. -/
def digitsRest (isDigit : Char → Bool) : Nat → List Char → Option (List Char × List Char)
  | 0, _ => none
  | fuel + 1, cs =>
    match cs with
    | c :: rest =>
      if isDigit c then
        match rest with
        | '_' :: next => do
          let (digits, rest) ← digitsRest isDigit fuel next
          return (c :: digits, rest)
        | next :: _ =>
          if isDigit next then do
            let (digits, rest) ← digitsRest isDigit fuel rest
            return (c :: digits, rest)
          else some ([c], rest)
        | [] => some ([c], [])
      else none
    | [] => none

/-- A run of digits. -/
def digits? (isDigit : Char → Bool) (cs : List Char) : Option (List Char × List Char) :=
  digitsRest isDigit (cs.length + 1) cs

/-- A sign, if there is one. -/
def sign (cs : List Char) : Bool × List Char :=
  match cs with
  | '-' :: rest => (true, rest)
  | '+' :: rest => (false, rest)
  | _ => (false, cs)

/-- A decimal integer without leading zeros, with its sign. -/
def decimal? (cs : List Char) : Option ((Bool × List Char) × List Char) :=
  let (negative, cs) := sign cs
  match cs with
  | '0' :: rest => some ((negative, ['0']), rest)
  | _ => (digits? Text.isDigit cs).map fun (digits, rest) => ((negative, digits), rest)

/-! ## Integers -/

/-- An integer that fits 64 bits with sign. -/
def fits (n : Int) : Bool := Int64.minValue.toInt ≤ n && n ≤ Int64.maxValue.toInt

/-- The value of digits in a base. -/
def valueIn (base : Nat) (digits : List Char) : Nat :=
  digits.foldl (fun acc c => acc * base + (Json.hexValue? c).getD 0) 0

/-- An integer in a base other than ten, after its mark. -/
def based? (base : Nat) (cs : List Char) : Option (Json × List Char) := do
  let (digits, rest) ← digits? (fun c => (Json.hexValue? c).any (· < base)) cs
  let n : Int := valueIn base digits
  if fits n then return (.int n, rest) else none

/-- An integer. -/
def integer? (cs : List Char) : Option (Json × List Char) :=
  match cs with
  | '0' :: 'x' :: rest => based? 16 rest
  | '0' :: 'o' :: rest => based? 8 rest
  | '0' :: 'b' :: rest => based? 2 rest
  | _ => do
    let ((negative, digits), rest) ← decimal? cs
    let magnitude : Int := valueIn 10 digits
    let n := if negative then -magnitude else magnitude
    if fits n then return (.int n, rest) else none

/-! ## Floats -/

/-- `significand * 10 ^ exponent` rounded to the nearest double. Exponents that are out of range
whatever the significand is are decided without computing the power. -/
def nearest (significand : Nat) (exponent : Int) : Float :=
  let size : Int := exponent + (Nat.toDigits 10 significand).length
  if significand = 0 ∨ size < -400 then 0.0
  else if 400 < size then 1.0 / 0.0
  else if 0 ≤ exponent then Float.ofScientific (significand * Nat.pow 10 exponent.toNat) false 0
  else Float.ofScientific significand true exponent.natAbs

/-- The fraction, if a point starts one. -/
def fraction? (cs : List Char) : Option (List Char × List Char) :=
  match cs with
  | '.' :: rest => digits? Text.isDigit rest
  | _ => some ([], cs)

/-- The exponent, if a mark starts one. -/
def power? (cs : List Char) : Option (Int × List Char) :=
  match cs with
  | c :: rest =>
    if c = 'e' ∨ c = 'E' then do
      let (negative, rest) := sign rest
      let (digits, rest) ← digits? Text.isDigit rest
      let n : Int := valueIn 10 digits
      return (if negative then -n else n, rest)
    else some (0, cs)
  | [] => some (0, cs)

/-- An infinity or NaN. -/
def special? (cs : List Char) : Option (Json × List Char) :=
  let (negative, cs) := sign cs
  let signed (x : Float) : Json := .float (if negative then -x else x)
  match cs with
  | 'i' :: 'n' :: 'f' :: rest => some (signed (1.0 / 0.0), rest)
  | 'n' :: 'a' :: 'n' :: rest => some (signed (0.0 / 0.0), rest)
  | _ => none

/-- A decimal with a fraction or an exponent. A positive one must not be too large for a double. -/
def float? (cs : List Char) : Option (Json × List Char) := do
  let ((negative, whole), rest) ← decimal? cs
  match rest with
  | c :: _ =>
    if c = '.' ∨ c = 'e' ∨ c = 'E' then
      let (fraction, rest) ← fraction? rest
      let (power, rest) ← power? rest
      let x := nearest (valueIn 10 (whole ++ fraction)) (power - fraction.length)
      let x := if negative then -x else x
      if x.isInf ∧ !negative then none else return (.float x, rest)
    else none
  | [] => none

/-! ## Dates and times -/

/-- A number of exactly `n` digits. -/
def exactly? (n : Nat) (cs : List Char) : Option (Nat × List Char) :=
  let head := cs.take n
  if head.length = n ∧ head.all Text.isDigit then some (valueIn 10 head, cs.drop n) else none

/-- What follows a given character. -/
def after? (c : Char) : List Char → Option (List Char)
  | d :: rest => if c = d then some rest else none
  | [] => none

/-- Whether a year has a 29th of February. -/
def isLeap (year : Nat) : Bool := (year % 4 == 0 && year % 100 != 0) || year % 400 == 0

/-- The number of days of a month. -/
def daysIn (year month : Nat) : Nat :=
  if month = 2 then (if isLeap year then 29 else 28)
  else if month = 4 ∨ month = 6 ∨ month = 9 ∨ month = 11 then 30
  else 31

/-- Year, month and day. -/
def date? (cs : List Char) : Option (List Char) := do
  let (year, cs) ← exactly? 4 cs
  let cs ← after? '-' cs
  let (month, cs) ← exactly? 2 cs
  let cs ← after? '-' cs
  let (day, cs) ← exactly? 2 cs
  if 1 ≤ month ∧ month ≤ 12 ∧ 1 ≤ day ∧ day ≤ daysIn year month then return cs
  else none

/-- Hour, minute and second with a fraction; a leap second is allowed. -/
def time? (cs : List Char) : Option (List Char) := do
  let (hour, cs) ← exactly? 2 cs
  let cs ← after? ':' cs
  let (minute, cs) ← exactly? 2 cs
  let cs ← after? ':' cs
  let (second, cs) ← exactly? 2 cs
  if 23 < hour ∨ 59 < minute ∨ 60 < second then none
  match cs with
  | '.' :: rest =>
    if (rest.takeWhile Text.isDigit).isEmpty then none else return rest.dropWhile Text.isDigit
  | _ => return cs

/-- The distance from universal time, if one is given. -/
def offset? (cs : List Char) : Option (List Char) :=
  match cs with
  | c :: rest =>
    if c = 'Z' ∨ c = 'z' then some rest
    else if c = '+' ∨ c = '-' then do
      let (hour, rest) ← exactly? 2 rest
      let rest ← after? ':' rest
      let (minute, rest) ← exactly? 2 rest
      if hour ≤ 23 ∧ minute ≤ 59 then return rest else none
    else some cs
  | [] => some []

/-- A date, a time, or a date with a time. It is kept as an object with its text. -/
def dateTime? (cs : List Char) : Option (Json × List Char) := do
  let rest ← match date? cs with
    | some rest =>
      match rest with
      | c :: next =>
        if (c = 'T' ∨ c = 't' ∨ c = ' ') ∧ (time? next).isSome then (time? next).bind offset?
        else some rest
      | [] => some []
    | none => time? cs
  return (.obj [("date-time", .str (String.ofList (cs.take (cs.length - rest.length))))], rest)

/-- A date, a number or a time. -/
def number? (cs : List Char) : Option (Json × List Char) :=
  match dateTime? cs with
  | some result => some result
  | none =>
    match special? cs with
    | some result => some result
    | none =>
      match float? cs with
      | some result => some result
      | none =>
        match decimal? cs with
        | some (_, '.' :: _) | some (_, 'e' :: _) | some (_, 'E' :: _) => none
        | _ => integer? cs

end Annals.Toml
