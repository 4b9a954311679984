/-!
# Doubles as integers

A finite double is a sign and a magnitude `mantissa * 2 ^ exponent`. Comparing and printing doubles
is done on these integers, where it is exact.
-/

namespace Annals.Decimal

/-- The magnitude `mantissa * 2 ^ exponent` of a finite double, with its sign. -/
structure Binary where
  negative : Bool
  mantissa : Nat
  exponent : Int
  /-- The next double towards zero is only half a unit away from this one's lower neighbour. -/
  narrowBelow : Bool
deriving DecidableEq, Repr

/-- Splits the 64 bits of a double: one sign bit, eleven exponent bits, 52 fraction bits. -/
def Binary.ofFloat (x : Float) : Binary :=
  let bits : Nat := x.toBits.toNat
  let fraction : Nat := bits % Nat.pow 2 52
  let field : Nat := bits / Nat.pow 2 52 % Nat.pow 2 11
  let negative := bits / Nat.pow 2 63 == 1
  if field = 0 then { negative, mantissa := fraction, exponent := -1074, narrowBelow := false }
  else
    { negative, mantissa := fraction + Nat.pow 2 52, exponent := (field : Int) - 1075
      narrowBelow := fraction == 0 && field != 1 }

end Annals.Decimal
