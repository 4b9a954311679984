import Annals.Json.Basic
import Annals.Text.Digits
import Annals.Decimal.Scaled
/-!
# Reading JSON numerals

A numeral is a sign, an integer part without superfluous zeros, and optionally a fraction and an
exponent. Without fraction and exponent it is an integer if it fits 64 bits; the numeral `-0` and
every other numeral is a double.

A double is read from the longest run of leading digits that fits 64 bits; later digits of the
integer part only raise the exponent, later digits of the fraction are dropped.
-/

namespace Annals.Json

/-- A numeral taken apart. -/
structure Numeral where
  negative : Bool
  /-- Digits of the integer part. -/
  whole : List Char
  /-- Digits of the fraction, none when there is no fraction. -/
  fraction : List Char
  /-- Sign and digits of the exponent. -/
  exponent : Option (Bool × List Char)
deriving DecidableEq, Repr

/-! ## Scanning -/

/-- A run of digits and what follows it. -/
def digitRun (cs : List Char) : List Char × List Char :=
  (cs.takeWhile Text.isDigit, cs.dropWhile Text.isDigit)

/-- The integer part: `0`, or digits that do not start with `0`. -/
def scanWhole (cs : List Char) : Option (List Char × List Char) :=
  match digitRun cs with
  | ([], _) => none
  | (['0'], rest) => some (['0'], rest)
  | ('0' :: _, _) => none
  | (digits, rest) => some (digits, rest)

/-- The fraction, if a point starts one; the point needs a digit behind it. -/
def scanFraction (cs : List Char) : Option (List Char × List Char) :=
  match cs with
  | '.' :: rest =>
    match digitRun rest with
    | ([], _) => none
    | (digits, rest) => some (digits, rest)
  | _ => some ([], cs)

/-- Sign and digits of an exponent, whose mark has been read. -/
def scanPower (negative : Bool) (cs : List Char) :
    Option (Option (Bool × List Char) × List Char) :=
  match digitRun cs with
  | ([], _) => none
  | (digits, rest) => some (some (negative, digits), rest)

/-- The exponent, if a mark starts one; the mark needs a digit behind it. -/
def scanExponent (cs : List Char) : Option (Option (Bool × List Char) × List Char) :=
  match cs with
  | c :: rest =>
    if c = 'e' ∨ c = 'E' then
      match rest with
      | '+' :: digits => scanPower false digits
      | '-' :: digits => scanPower true digits
      | digits => scanPower false digits
    else some (none, cs)
  | [] => some (none, cs)

/-- The numeral at the front of a text. -/
def scanNumeral (cs : List Char) : Option (Numeral × List Char) := do
  let (negative, cs) := match cs with
    | '-' :: rest => (true, rest)
    | _ => (false, cs)
  let (whole, cs) ← scanWhole cs
  let (fraction, cs) ← scanFraction cs
  let (exponent, cs) ← scanExponent cs
  return ({ negative, whole, fraction, exponent }, cs)

/-! ## Value -/

/-- The number of leading digits that are kept: appending the next one would leave 64 bits. -/
def keepDigits (acc : Nat) : List Char → Nat × List Char
  | [] => (acc, [])
  | c :: rest =>
    let next := acc * 10 + (c.toNat - '0'.toNat)
    if next < UInt64.size then keepDigits next rest else (acc, c :: rest)

/-- A decimal's significand and exponent before its written exponent is added. -/
def Numeral.significand (n : Numeral) : Nat × Int :=
  let (kept, dropped) := keepDigits 0 n.whole
  if dropped.isEmpty then
    let (kept, dropped) := keepDigits kept n.fraction
    (kept, -((n.fraction.length - dropped.length : Nat) : Int))
  else
    let (kept', rest) := keepDigits kept n.fraction
    (kept', (dropped.length : Int) - ((n.fraction.length - rest.length : Nat) : Int))

/-- The bound on a written exponent: one above it means zero or a number out of range. -/
def exponentLimit : Nat := Nat.pow 2 31 - 1

/-- The numeral as a double; nothing when it is too large. -/
def Numeral.double? (n : Numeral) : Option Float := do
  let (significand, shift) := n.significand
  let magnitude ← match n.exponent with
    | none => Decimal.scale? (Float.ofNat significand) shift
    | some (down, digits) =>
      let power := Nat.ofDigitChars 10 digits 0
      if exponentLimit < power then
        if significand ≠ 0 ∧ !down then none else some 0.0
      else
        let total := if down then shift - power else shift + power
        Decimal.scale? (Float.ofNat significand)
          (max Int32.minValue.toInt (min (exponentLimit : Int) total))
  return if n.negative then -magnitude else magnitude

/-- The value of a numeral. -/
def Numeral.value? (n : Numeral) : Option Json :=
  let whole := Nat.ofDigitChars 10 n.whole 0
  if n.fraction.isEmpty && n.exponent.isNone then
    if n.negative then
      if 0 < whole && whole ≤ Nat.pow 2 63 then some (.int (-whole)) else n.double?.map .float
    else
      if whole < UInt64.size then some (.int whole) else n.double?.map .float
  else n.double?.map .float

/-- The number at the front of a text. -/
def number? (cs : List Char) : Option (Json × List Char) := do
  let (numeral, rest) ← scanNumeral cs
  let value ← numeral.value?
  return (value, rest)

end Annals.Json
