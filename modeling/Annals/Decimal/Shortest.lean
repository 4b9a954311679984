import Annals.Decimal.Binary
/-!
# The shortest decimal of a binary fraction

A finite double stands for every real number that rounds to it. `shortest` finds the decimal with
the fewest digits among those numbers, and of two such decimals the one nearer to the double. A
`Tie` decides between two equally near ones.

* `Binary.shortest`: digits and a power of ten.
-/

namespace Annals.Decimal

/-! ## The interval that rounds to a double -/

/-- The reals that round to a double, as quarter units over a common denominator: a real `r`
belongs when `low ≤ r * denominator ≤ high`, both ends counting when `closed` holds. -/
structure Interval where
  low : Nat
  value : Nat
  high : Nat
  denominator : Nat
  closed : Bool

/-- The rounding interval of a double. Its ends round to the even mantissa. -/
def Binary.interval (b : Binary) : Interval :=
  let scale := Nat.pow 2 b.exponent.toNat
  { low := (4 * b.mantissa - (if b.narrowBelow then 1 else 2)) * scale
    value := 4 * b.mantissa * scale
    high := (4 * b.mantissa + 2) * scale
    denominator := 4 * Nat.pow 2 (-b.exponent).toNat
    closed := b.mantissa % 2 == 0 }

/-- Whether `digits * 10 ^ power` lies in the interval. -/
def Interval.holds (i : Interval) (digits : Nat) (power : Int) : Bool :=
  let point := digits * Nat.pow 10 power.toNat * i.denominator
  let unit := Nat.pow 10 (-power).toNat
  if i.closed then i.low * unit ≤ point && point ≤ i.high * unit
  else i.low * unit < point && point < i.high * unit

/-- Which of two equally near neighbours is taken. -/
inductive Tie where
  | even
  | awayFromZero
deriving DecidableEq, Repr

/-- The choice between a number and its successor. -/
def Tie.pick (tie : Tie) (below : Nat) : Nat :=
  match tie with
  | .even => if below % 2 = 0 then below else below + 1
  | .awayFromZero => below + 1

/-- The point of the grid of multiples of `10 ^ power` that lies in the interval, if one of the
two grid points around the value does; the nearer one if both do. -/
def Interval.gridPoint? (i : Interval) (tie : Tie) (power : Int) : Option Nat :=
  let unit := Nat.pow 10 (-power).toNat
  let step := i.denominator * Nat.pow 10 power.toNat
  let below := i.value * unit / step
  let above := below + 1
  match below != 0 && i.holds below power, i.holds above power with
  | true, true =>
    let twice := 2 * (i.value * unit)
    let middle := (below + above) * step
    some (if twice < middle then below else if middle < twice then above else tie.pick below)
  | true, false => some below
  | false, true => some above
  | false, false => none

/-! ## The shortest decimal -/

/-- A decimal: `digits * 10 ^ power`. -/
structure Shortest where
  digits : Nat
  power : Int
deriving DecidableEq, Repr

/-- Walks from coarse grids to fine ones and stops at the first that meets the interval. -/
def Interval.search (i : Interval) (tie : Tie) : Nat → Int → Shortest
  | 0, power => { digits := 0, power }
  | fuel + 1, power =>
    match i.gridPoint? tie power with
    | some digits => { digits, power }
    | none => i.search tie fuel (power - 1)

/-- The decimal with the fewest digits that reads back as the double. A double is below
`10 ^ 309` and above `10 ^ -324`, and 17 digits always suffice. -/
def Binary.shortest (b : Binary) (tie : Tie) : Shortest :=
  if b.mantissa = 0 then { digits := 0, power := 0 } else b.interval.search tie 660 309

end Annals.Decimal
