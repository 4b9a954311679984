import Annals.Proofs.Course.Depth
import Annals.Proofs.Simulation.Steps
/-!
# Runs within their depth

Over a catalog whose chains are shorter than the greatest depth, no year of a simulation is cut
short. So a greater depth changes neither a step nor what is told of it.

* `Simulation.InStep`: two simulations that differ in their rules only, before and after every
  step, and tell the same.
* `Simulation.inStep_withDepth`: a simulation with two depths.
* `Simulation.spare_depth_changes_nothing`: years, simulations from any state, and runs from a
  configuration.
-/

namespace Annals

/-- The configuration with another greatest depth. -/
def Config.withDepth (c : Config) (depth : UInt32) : Config :=
  { c with course := { c.course with maxDepth := depth } }

namespace Simulation

variable {σ : Type}

/-- The simulation with another greatest depth. -/
def withDepth (s : Simulation σ) (depth : UInt32) : Simulation σ :=
  s.withRules (s.rules.withDepth depth)

variable [Dice σ]

/-- The second simulation is the first one under its own rules, after any number of steps and at
the end of its run, and each step and the run end as they do in the first. -/
structure InStep (s t : Simulation σ) : Prop where
  state : ∀ k, t.after k = (s.after k).withRules t.rules
  result : ∀ k, (t.after k).step.1 = (s.after k).step.1
  told : ∀ k, t.told k = s.told k
  run : t.run = { s.run with last := s.run.last.withRules t.rules }

/-- Simulations are in step when all years go the same way under the rules of either. -/
theorem inStep_withRules {s : Simulation σ} {rules : Rules}
    (hyear : ∀ year world (dice : σ),
      rules.passYear year world dice = s.rules.passYear year world dice) :
    s.InStep (s.withRules rules) where
  state := fun k => (after_withRules hyear k).1
  result := fun k => (after_withRules hyear k).2
  told := told_withRules hyear
  run := runFor_withRules hyear s.clock.remaining

/-- A simulation over a shallow catalog stays in step with itself under another depth that no chain
can use up. -/
theorem inStep_withDepth {s : Simulation σ} (hcat : s.rules.catalog.Loaded) {depth : Nat}
    (hshallow : s.rules.catalog.Shallow depth) {m n : UInt32} (hm : depth ≤ m.toNat)
    (hn : depth ≤ n.toNat) : (s.withDepth m).InStep (s.withDepth n) := by
  have hsame := inStep_withRules (s := s.withDepth m) (Rules.passYear_withDepth hcat hshallow hn hm)
  exact hsame

/-- A depth that no chain uses up changes nothing. In a loaded catalog in which no path of
follow-ups at once has more than `depth` edges, take two greatest depths that are not below that
bound. A year of any world, with any queue, is the same with both: what fires, the fault, the world
it leaves with its queue, and the state of the dice. So are all years in a row, all steps of a
simulation from any state, and the run of any configuration. -/
theorem spare_depth_changes_nothing {catalog : Catalog} (hcat : catalog.Loaded) {depth : Nat}
    (hshallow : catalog.Shallow depth) {m n : UInt32} (hm : depth ≤ m.toNat)
    (hn : depth ≤ n.toNat) :
    (∀ rules : Rules, rules.catalog = catalog → ∀ (world : World) (dice : σ),
      (∀ year, (rules.withDepth m).passYear year world dice =
        (rules.withDepth n).passYear year world dice) ∧
      ∀ years k, (rules.withDepth m).during years world dice k =
        (rules.withDepth n).during years world dice k) ∧
    (∀ s : Simulation σ, s.rules.catalog = catalog → (s.withDepth m).InStep (s.withDepth n)) ∧
    ∀ (c : Config) (dice : σ),
      (ofConfig (c.withDepth m) catalog dice).InStep (ofConfig (c.withDepth n) catalog dice) := by
  refine ⟨?_, ?_, fun c dice => ?_⟩
  · rintro rules rfl world dice
    refine ⟨fun year => Rules.passYear_withDepth hcat hshallow hm hn year world dice, ?_⟩
    intro years k
    unfold Rules.during
    rw [Rules.before_withDepth hcat hshallow hm hn, Rules.passYear_withDepth hcat hshallow hm hn]
  · rintro s rfl
    exact inStep_withDepth hcat hshallow hm hn
  · have hsame := inStep_withDepth (s := ofConfig c catalog dice) hcat hshallow hm hn
    exact hsame

theorem spare_depth_changes_nothing_beacons :
    Catalog.beacons.Loaded ∧ Catalog.beacons.Shallow 2 ∧ 2 ≤ (2 : UInt32).toNat ∧
    2 ≤ (10 : UInt32).toNat ∧
    (Rules.signalled 2).passYear 5 (.blank 5) Rules.still =
      (Rules.signalled 10).passYear 5 (.blank 5) Rules.still ∧
    (ofConfig (Config.withDepth {} 2) .beacons Rules.still).InStep
      (ofConfig (Config.withDepth {} 10) .beacons Rules.still) := by
  have htwo : 2 ≤ (2 : UInt32).toNat := by decide
  have hten : 2 ≤ (10 : UInt32).toNat := by decide
  obtain ⟨hyears, -, hruns⟩ := spare_depth_changes_nothing (σ := Generator) Catalog.beacons_loaded
    Catalog.beacons_shallow htwo hten
  obtain ⟨hyear, -⟩ := hyears (Rules.signalled 0) rfl (.blank 5) Rules.still
  exact ⟨Catalog.beacons_loaded, Catalog.beacons_shallow, htwo, hten, hyear 5,
    hruns {} Rules.still⟩

end Simulation

end Annals
