import Annals.Decimal.Binary
import Annals.Calendar
/-!
# Dice

Every chance in the library is drawn from a class of states, so that a rule is stated once for all
sources of chance. A draw returns its result and the next state.

* `Dice`: the four kinds of draws.
* `Roll.reaches`: whether a fraction is at least a given chance.
* `Dice.between`, `Dice.choose`: a year of a range, an item of a list.
-/

namespace Annals

/-! ## Fractions -/

/-- A fraction of one: `numerator / 2 ^ 53`. -/
structure Roll where
  numerator : Fin (Nat.pow 2 53)
deriving DecidableEq, Repr

/-- Whether the fraction is at least `chance`. Nothing is at least a chance that is no number. -/
def Roll.reaches (r : Roll) (chance : Float) : Bool :=
  if chance.isNaN then false
  else
    let b := Decimal.Binary.ofFloat chance
    if b.negative || b.mantissa == 0 then true
    else if chance.isInf then false
    else b.mantissa * Nat.pow 2 (b.exponent + 53).toNat ≤
      r.numerator.val * Nat.pow 2 (-(b.exponent + 53)).toNat

/-! ## Draws -/

/-- A source of chance whose states are of type `σ`. -/
class Dice (σ : Type) where
  /-- A fraction of one. -/
  roll : σ → Roll × σ
  /-- A fair yes or no. -/
  coin : σ → Bool × σ
  /-- A number up to `n`, from 32-bit words. -/
  short (n : Nat) : σ → Fin (n + 1) × σ
  /-- A number up to `n`, from 64-bit words. -/
  long (n : Nat) : σ → Fin (n + 1) × σ

namespace Dice

variable {σ α : Type} [Dice σ]

/-- Whether a range has every word. -/
def isWhole (low high : Year) : Bool := low = Int32.minValue && high = Int32.maxValue

/-- A word between two others, both included; the lower one, without a draw, when the range is
empty or has one word only. What is drawn is counted from the lower word, or from zero when the
range has every word. -/
def between (low high : Year) (s : σ) : Year × σ :=
  if low < high then
    let (n, s) := short (high.toInt - low.toInt).toNat s
    ((if isWhole low high then 0 else low) + Int32.ofNat n, s)
  else (low, s)

/-- An item of a list; `default` when there is none. -/
def choose (default : α) (items : List α) (s : σ) : α × σ :=
  match items with
  | [] => (default, s)
  | item :: rest =>
    let (n, s) := short rest.length s
    ((item :: rest).get n, s)

end Dice

end Annals
