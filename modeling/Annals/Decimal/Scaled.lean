/-!
# Reading a decimal by scaling

A decimal `significand * 10 ^ exponent` becomes a double in two steps: the significand is rounded
to a double, then multiplied or divided by a power of ten that is itself a double. The result may
be off by one unit from the correctly rounded one; what is gained is that every step is one
operation on doubles.
-/

namespace Annals.Decimal

/-- The largest power of ten that a double can hold. -/
def maxPower : Nat := 308

/-- The double nearest to a power of ten, for exponents up to `maxPower`. -/
def powerOfTen (k : Nat) : Float := Float.ofScientific 1 false k

/-- `x * 10 ^ exponent`, or nothing when the product is too large for a double. An exponent below
`-maxPower` is taken in several divisions. -/
def scale? (x : Float) (exponent : Int) : Option Float :=
  if exponent.natAbs ≤ maxPower then
    if 0 ≤ exponent then
      let y := x * powerOfTen exponent.natAbs
      if y.isInf then none else some y
    else some (x / powerOfTen exponent.natAbs)
  else if x == 0.0 then some x
  else if _ : 0 ≤ exponent then none
  else scale? (x / powerOfTen maxPower) (exponent + maxPower)
termination_by exponent.natAbs
decreasing_by simp only [maxPower] at *; omega

end Annals.Decimal
