import Annals.Decimal.Shortest
/-!
# How decimals are written

A double is written as its shortest decimal. A `Layout` holds what is left to decide: between two
equally near decimals, between a point and an exponent, and whether a whole number shows a fraction.

* `Layout.ofFloat`: the text of a double.
* `positional`, `scientific`: a decimal without an exponent and with one.
-/

namespace Annals.Decimal

/-! ## Two ways to write a decimal -/

/-- Writes `digits * 10 ^ power` with a decimal point where one is needed and no exponent. -/
def positional (d : Shortest) : List Char :=
  let digits := Nat.toDigits 10 d.digits
  if 0 ≤ d.power then digits ++ List.replicate d.power.toNat '0'
  else
    let places := (-d.power).toNat
    let padded := List.replicate (places + 1 - digits.length) '0' ++ digits
    padded.take (padded.length - places) ++ '.' :: padded.drop (padded.length - places)

/-- The power of ten of the first digit. -/
def Shortest.exponent (d : Shortest) : Int :=
  d.power + ((Nat.toDigits 10 d.digits).length - 1 : Nat)

/-- Writes one digit, the others behind a point, and the exponent with its sign. -/
def scientific (d : Shortest) : List Char :=
  let exponent := d.exponent
  let significand := match Nat.toDigits 10 d.digits with
    | first :: second :: rest => first :: '.' :: second :: rest
    | single => single
  significand ++ 'e' :: (if exponent < 0 then '-' else '+') :: Nat.toDigits 10 exponent.natAbs

/-! ## Layouts -/

/-- The decisions of a format. -/
structure Layout where
  /-- Which of two equally near decimals is written. -/
  tie : Tie
  /-- The least and the greatest power of ten of a first digit that go without an exponent; without
  bounds there are no exponents. -/
  bounds : Option (Int × Int)
  /-- Whether a whole number without an exponent gets a fraction of zero. -/
  showsFraction : Bool
deriving DecidableEq, Repr

namespace Layout

/-- Whether a decimal is written with an exponent. -/
def hasExponent (l : Layout) (d : Shortest) : Bool :=
  match l.bounds with
  | some (least, greatest) => d.exponent < least || greatest < d.exponent
  | none => false

/-- The characters of a decimal. -/
def chars (l : Layout) (d : Shortest) : List Char :=
  if l.hasExponent d then scientific d
  else if l.showsFraction && 0 ≤ d.power then positional d ++ ['.', '0']
  else positional d

/-- The text of a double. -/
def ofFloat (l : Layout) (x : Float) : String :=
  if x.isNaN then "NaN"
  else if x.isInf then (if x < 0 then "-inf" else "inf")
  else
    let b := Binary.ofFloat x
    String.ofList ((if b.negative then ['-'] else []) ++ l.chars (b.shortest l.tie))

end Layout

end Annals.Decimal
