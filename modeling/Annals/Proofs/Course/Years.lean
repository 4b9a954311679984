import Annals.Dice.Generator
import Annals.Proofs.Catalog.Loaded
import Annals.Proofs.Course.Replay
/-!
# Years one after the other

* `Rules.before`: the world and the dice before each year of a sequence.
* `Rules.during`: each year of the sequence, gone through from there.
* `Rules.tolling`: rules over a small catalog, with a world and years for them.
-/

namespace Annals

namespace Rules

variable {σ : Type} [Dice σ]

/-- The world and the dice before the `n`-th year of a sequence. A year with a fault leaves its
state to the next one like any other. -/
def before (rules : Rules) (years : Nat → Year) (world : World) (dice : σ) : Nat → World × σ
  | 0 => (world, dice)
  | n + 1 =>
    let s := before rules years world dice n
    let p := rules.passYear (years n) s.1 s.2
    (p.world, p.dice)

/-- The `n`-th year of a sequence. -/
def during (rules : Rules) (years : Nat → Year) (world : World) (dice : σ) (n : Nat) :
    Passage σ :=
  rules.passYear (years n) (rules.before years world dice n).1
    (rules.before years world dice n).2

variable (rules : Rules) (years : Nat → Year) (world : World) (dice : σ)

@[simp] theorem before_zero : rules.before years world dice 0 = (world, dice) := rfl

@[simp] theorem before_succ (n : Nat) :
    rules.before years world dice (n + 1) =
      ((rules.during years world dice n).world, (rules.during years world dice n).dice) := rfl

/-! ## A small course -/

/-- Rules under which every category that can begin a chain does. -/
def tolling : Rules :=
  { catalog := .bells, settings := { maxDepth := 2, categoryChance := 1.0 } }

/-- A world with one trigger that is overdue and one that is set for later. -/
def belfry : World :=
  { World.blank 999 with queue := [
      { event := "gale", due := 998, chance := 0.5, category := "omens", scheduledBy := "echo"
        scheduledIn := 997 },
      { event := "bell", due := 1003, chance := 1.0, category := "omens", scheduledBy := "bell"
        scheduledIn := 990 }] }

/-- Two years one after the other, then a later one over and over. -/
def millennium : Nat → Year
  | 0 => 1000
  | 1 => 1001
  | _ => 1003

theorem millennium_mono (n : Nat) : millennium n ≤ millennium (n + 1) := by
  match n with
  | 0 => decide
  | 1 => decide
  | _ + 2 => exact Int32.le_refl _

/-- Dice whose draws all come from the word zero. -/
def still : Generator := .stepping 0 0

end Rules

end Annals
