import Annals.Dice
/-!
# Dice that count

Any dice can be made to count their draws, each kind by itself. What is drawn stays the same.

* `Dice.Counted`: dice with the number of draws of each kind.
-/

namespace Annals.Dice

/-- Dice together with the number of draws that have been made with them. -/
structure Counted (σ : Type) where
  dice : σ
  /-- Fractions of one. -/
  rolls : Nat
  coins : Nat
  /-- Numbers from 32-bit words. -/
  shorts : Nat
  /-- Numbers from 64-bit words. -/
  longs : Nat

namespace Counted

variable {σ : Type}

/-- Dice with which nothing has been drawn. -/
def start (dice : σ) : Counted σ := { dice, rolls := 0, coins := 0, shorts := 0, longs := 0 }

variable [Dice σ]

instance : Dice (Counted σ) where
  roll c := ((Dice.roll c.dice).1, { c with dice := (Dice.roll c.dice).2, rolls := c.rolls + 1 })
  coin c := ((Dice.coin c.dice).1, { c with dice := (Dice.coin c.dice).2, coins := c.coins + 1 })
  short n c :=
    ((Dice.short n c.dice).1, { c with dice := (Dice.short n c.dice).2, shorts := c.shorts + 1 })
  long n c :=
    ((Dice.long n c.dice).1, { c with dice := (Dice.long n c.dice).2, longs := c.longs + 1 })

theorem roll_eq (c : Counted σ) :
    Dice.roll c =
      ((Dice.roll c.dice).1, { c with dice := (Dice.roll c.dice).2, rolls := c.rolls + 1 }) := rfl

theorem long_eq (n : Nat) (c : Counted σ) :
    Dice.long n c =
      ((Dice.long n c.dice).1, { c with dice := (Dice.long n c.dice).2, longs := c.longs + 1 }) :=
  rfl

end Counted

end Annals.Dice
