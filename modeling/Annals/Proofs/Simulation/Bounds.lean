import Annals.Proofs.Course.Bounds
import Annals.Proofs.Simulation.Chapters
/-!
# Stats of a run

A simulation changes the stats of its world by the years of the world only, so they evolve by the
rules of effects, and a run never leaves the bounds within which it begins.

* `Simulation.evolves_step`: one step.
* `Simulation.stats_within_bounds`: years one after the other, and all states of a simulation.
-/

namespace Annals.Simulation

variable {σ : Type} [Dice σ] {s : Simulation σ}

/-- A step keeps to the rules of stats, whether it finishes its year or not. -/
theorem evolves_step (hblank : s.book = .blank) : s.world.Evolves s.step.2.world := by
  have hview := stepped hblank
  generalize s.step.1 = result, s.step.2 = next at hview ⊢
  cases hview with
  | told families dice hfault hworld hrules hclock hbook =>
    rw [hworld]
    exact s.rules.evolves_passYear s.clock.year s.world dice
  | broken fault dice hfault hworld hrules hclock hbook =>
    rw [hworld]
    exact s.rules.evolves_passYear s.clock.year s.world dice

theorem evolves_after (hblank : s.book = .blank) (n : Nat) :
    s.world.Evolves (s.after n).world := by
  induction n with
  | zero => exact .refl s.world
  | succ n ih => exact ih.trans (evolves_step (book_after hblank n))

/-- Stats stay within bounds. Through any years one after the other, those that end in a fault
included, no region, faction or stat is lost, a number is the old one or from zero to a hundred, a
text stays a text, and only the leader of a faction gets a new text. So a world with all numbers
from zero to a hundred keeps them there, and every state of a simulation is such a world. -/
theorem stats_within_bounds :
    (∀ (rules : Rules) (years : Nat → Year) (world : World) (dice : σ) (n : Nat),
      world.Evolves (rules.before years world dice n).1 ∧
      (world.Bounded → (rules.before years world dice n).1.Bounded)) ∧
    ∀ (c : Config) (catalog : Catalog) (dice : σ) (n : Nat),
      (World.beginning c.run.startYear).Evolves ((ofConfig c catalog dice).after n).world ∧
      ((ofConfig c catalog dice).after n).world.Bounded := by
  constructor
  · intro rules years world dice n
    have hevolves := rules.evolves_before years world dice n
    exact ⟨hevolves, hevolves.bounded⟩
  · intro c catalog dice n
    have hevolves := evolves_after (s := ofConfig c catalog dice) rfl n
    exact ⟨hevolves, hevolves.bounded (World.bounded_beginning c.run.startYear)⟩

/-- A stat beyond the bounds stays where it is until an effect moves it. -/
theorem stats_within_bounds_flood :
    ¬ (Rules.belfry.setStat .region "Coast" "flood" (.number 1000)).Bounded ∧
    Rules.belfry.Bounded ∧
    (∀ n, (Rules.belfry.setStat .region "Coast" "flood" (.number 1000)).Evolves
      (Rules.before .tolling Rules.millennium
        (Rules.belfry.setStat .region "Coast" "flood" (.number 1000)) Rules.still n).1) ∧
    (∀ n, (Rules.before .tolling Rules.millennium Rules.belfry Rules.still n).1.Bounded) := by
  obtain ⟨hyears, -⟩ := @stats_within_bounds Generator _
  have hbounded : Rules.belfry.Bounded := by
    intro side owner stat n hn
    cases side <;> cases hn
  refine ⟨fun h => ?_, hbounded, fun n => ?_, fun n => ?_⟩
  · exact absurd (h .region "Coast" "flood" 1000 rfl).2 (by decide)
  · exact (hyears .tolling Rules.millennium _ Rules.still n).1
  · exact (hyears .tolling Rules.millennium Rules.belfry Rules.still n).2 hbounded

end Annals.Simulation
