import Annals.Proofs.Simulation.Steps
/-!
# Runs without faults

The clock of a run never falls behind the world, and the queue always fits the catalog. So no year
of a run is refused, and no event is missing.

* `Simulation.fault_runFor`: a run from a sound state that is not ahead of its clock has no fault.
* `Simulation.loaded_never_fails`: over a loaded catalog neither years nor runs have faults.
-/

namespace Annals.Simulation

variable {σ : Type} [Dice σ] {s : Simulation σ}

/-- The world has not gone beyond the year of the clock. -/
def OnTime (s : Simulation σ) : Prop := s.world.year ≤ s.clock.year

/-- No year of the world fails when the state is sound and on time. -/
theorem Sound.fault_course (h : s.Sound) (htime : s.OnTime) : s.course.fault = none :=
  Rules.fault_passYear h.loaded h.resolves htime _

/-- A sound state that is on time finishes its year: the world reaches the year of the clock, and
the clock moves on. -/
theorem Sound.step_ok (h : s.Sound) (htime : s.OnTime) :
    (∃ report, s.step.1 = .ok report) ∧ s.step.2.world.year = s.clock.year ∧
      s.step.2.clock = s.clock.tick := by
  have hview := stepped h.blank
  generalize s.step.1 = result, s.step.2 = next at hview ⊢
  cases hview with
  | told families dice hfault hworld hrules hclock hbook =>
    have hyear := Rules.year_passYear s.rules (Rules.not_lt_of_passYear hfault) dice
    exact ⟨⟨_, rfl⟩, (congrArg World.year hworld).trans hyear, hclock⟩
  | broken fault dice hfault hworld hrules hclock hbook =>
    rw [Rules.fault_passYear h.loaded h.resolves htime dice] at hfault
    cases hfault

/-- While years are left, a step leaves the world in the year before the clock's. -/
theorem Sound.onTime_step (h : s.Sound) (htime : s.OnTime) (hleft : s.clock.isFinished = false) :
    s.step.2.OnTime := by
  obtain ⟨-, hyear, hclock⟩ := h.step_ok htime
  unfold OnTime
  rw [hyear, hclock]
  -- The clock could only fall behind by running over the end of the calendar.
  exact Clock.le_tick hleft

/-- The state stays on time as long as the calendar has a next year. -/
theorem Sound.onTime_succ (h : s.Sound) (htime : s.OnTime) (hlast : s.clock.year ≠ .last) :
    s.step.2.OnTime := by
  obtain ⟨-, hyear, hclock⟩ := h.step_ok htime
  unfold OnTime
  rw [hyear, hclock, Int32.le_iff_toInt_le]
  show s.clock.year.toInt ≤ (s.clock.year + 1).toInt
  rw [Year.toInt_succ hlast]
  omega

/-- No run has a fault, however many years it may take. -/
theorem fault_runFor (h : s.Sound) (htime : s.OnTime) (n : Nat) : (runFor n s).fault = none := by
  induction n generalizing s with
  | zero => rfl
  | succ n ih =>
    unfold runFor
    split
    case isTrue hdone => rfl
    case isFalse hleft =>
      have hnext := ih h.step (h.onTime_step htime (Bool.eq_false_iff.2 hleft))
      obtain ⟨⟨report, hreport⟩, -, -⟩ := h.step_ok htime
      rcases hstep : s.step with ⟨result, next⟩
      rw [hstep] at hreport hnext
      cases hreport
      exact hnext

theorem onTime_ofConfig (c : Config) (catalog : Catalog) (dice : σ) :
    (ofConfig c catalog dice).OnTime := by
  show (World.beginning c.run.startYear).year ≤ c.run.startYear
  exact Int32.le_of_eq rfl

/-- Over a loaded catalog nothing fails. Years that never go back, from a world whose queue names
events of the catalog, have no faults, and the queue keeps naming events of the catalog, under its
categories when it did so at first. Runs of any length have no faults. -/
theorem loaded_never_fails {catalog : Catalog} (hcat : catalog.Loaded) :
    (∀ (settings : CourseSettings) (years : Nat → Year) (world : World) (dice : σ),
      world.Resolves catalog → world.year ≤ years 0 → (∀ n, years n ≤ years (n + 1)) → ∀ n,
        (Rules.during ⟨catalog, settings⟩ years world dice n).fault = none ∧
        (Rules.before ⟨catalog, settings⟩ years world dice n).1.Resolves catalog ∧
        (world.Filed catalog →
          (Rules.before ⟨catalog, settings⟩ years world dice n).1.Filed catalog)) ∧
    (∀ (c : Config) (dice : σ),
      (∀ n, (runFor n (ofConfig c catalog dice)).fault = none) ∧
      (ofConfig c catalog dice).run.fault = none) := by
  constructor
  · intro settings years world dice hqueue hstart hmono n
    have hrules : (Rules.mk catalog settings).catalog.Loaded := hcat
    refine ⟨?_, ?_, ?_⟩
    · exact Rules.fault_during hrules hqueue hstart hmono dice n
    · exact (Rules.resolves_before hrules hqueue hstart hmono dice n).1
    · intro hfiled
      exact Rules.filed_before hrules hqueue hfiled hstart hmono dice n
  · intro c dice
    have hsound := sound_ofConfig c hcat dice
    have htime := onTime_ofConfig c catalog dice
    exact ⟨fault_runFor hsound htime, fault_runFor hsound htime _⟩

theorem loaded_never_fails_bells :
    Catalog.bells.Loaded ∧ Rules.belfry.Resolves .bells ∧ Rules.belfry.Filed .bells ∧
    (∀ n, (Rules.during .tolling Rules.millennium Rules.belfry Rules.still n).fault = none ∧
      (Rules.before .tolling Rules.millennium Rules.belfry Rules.still n).1.Resolves .bells ∧
      (Rules.before .tolling Rules.millennium Rules.belfry Rules.still n).1.Filed .bells) ∧
    (ofConfig {} .bells Rules.still).run.fault = none := by
  have hqueue : Rules.belfry.Resolves .bells := by
    unfold World.Resolves
    decide
  have hfiled : Rules.belfry.Filed .bells := by
    unfold World.Filed
    decide
  obtain ⟨hyears, hruns⟩ := @loaded_never_fails Generator _ _ Catalog.bells_loaded
  refine ⟨Catalog.bells_loaded, hqueue, hfiled, fun n => ?_, (hruns {} Rules.still).2⟩
  obtain ⟨hfault, hresolves, hkept⟩ := hyears Rules.tolling.settings Rules.millennium Rules.belfry
    Rules.still hqueue (by decide) Rules.millennium_mono n
  exact ⟨hfault, hresolves, hkept hfiled⟩

end Annals.Simulation
