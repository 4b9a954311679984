import Annals.Proofs.Course.Years
import Annals.Proofs.World.Bounds
/-!
# Years keep stats within bounds

Whatever fires in a year, in whatever order, and whether or not the year ends in a fault, the stats
evolve by the rules of effects.

* `Rules.evolves`: every move of a chain keeps to the rules.
* `Rules.evolves_passYear`: so does a year.
* `Rules.evolves_before`: so do years one after the other.
-/

namespace Annals

namespace Passage.Composes

variable {σ : Type}

theorem evolves : Composes fun world (_ : σ) (p : Passage σ) => world.Evolves p.world where
  quiet := fun world _ _ => .refl world
  append := fun hp _ hq => hp.trans hq

end Passage.Composes

namespace Rules

variable {σ : Type}

/-- No move of a chain breaks the rules of stats. -/
theorem evolves (rules : Rules) (category : String) :
    ChainLaw rules category fun world (_ : σ) p => world.Evolves p.world where
  toComposes := .evolves
  struck := fun _ _ world _ => world.evolves_applyAll _
  queued := fun _ _ _ _ _ => .of_owners fun side => by cases side <;> rfl
  unknown := fun _ _ _ world _ _ => .refl world

variable [Dice σ] (rules : Rules)

/-- A year keeps to the rules of stats, up to the fault that ends it, if one does. -/
theorem evolves_passYear (year : Year) (world : World) (dice : σ) :
    world.Evolves (rules.passYear year world dice).world := by
  by_cases h : year < world.year
  · rw [passYear_of_lt h]
    exact .refl world
  · have htry := fun (t : Trigger) (_ : t ∈ world.due year) =>
      (evolves (σ := σ) rules t.category).tryTrigger (fun _ world _ _ => .refl world)
    have hscan := fun (c : Category) (hc : c ∈ rules.catalog.categories) =>
      (evolves (σ := σ) rules c.name).scan hc
    have hyear : (world.entered year).Evolves (rules.passYear year world dice).world :=
      passYear_law .evolves h htry hscan dice
    -- A year begins with the stats that the one before has left.
    have hentered : world.Evolves (world.entered year) :=
      .of_owners fun side => by cases side <;> rfl
    exact hentered.trans hyear

theorem evolves_before (years : Nat → Year) (world : World) (dice : σ) (n : Nat) :
    world.Evolves (rules.before years world dice n).1 := by
  induction n with
  | zero => exact .refl world
  | succ n ih => exact ih.trans (evolves_passYear rules (years n) _ _)

end Rules

end Annals
