import Annals.Proofs.Simulation.Runs
/-!
# Reports account for the world

What is told of the world is all that has happened to it: replayed on the world of the beginning,
the world events of the reports give the regions and the factions of the present world. A step that
fails tells nothing, and it has changed nothing either.

* `Simulation.sameStats_step`: one step.
* `Simulation.sameStats_after`: any number of steps.
* `Simulation.world_eq_replay`: the same for years, for steps from a configuration, and for runs.
-/

namespace Annals.Simulation

variable {σ : Type} [Dice σ] {s : Simulation σ}

/-- The report of a step, replayed on the world before it, gives the stats after it. -/
theorem sameStats_step (h : s.Sound) :
    s.step.2.world.SameStats
      (s.world.replay (s.step.1.toOption.toList.flatMap Report.occurrences)) := by
  have hview := stepped h.blank
  generalize s.step.1 = result, s.step.2 = next at hview ⊢
  cases hview with
  | told families dice hfault hworld hrules hclock hbook =>
    show next.world.SameStats (s.world.replay ([_].flatMap Report.occurrences))
    rw [hworld, List.flatMap_singleton, Report.occurrences_mk]
    exact Rules.sameStats_passYear s.rules s.clock.year s.world dice
  | broken fault dice hfault hworld hrules hclock hbook =>
    -- Only a year that lies in the past is refused, before anything has changed.
    rw [Rules.passYear_of_fault h.loaded h.resolves hfault] at hworld
    rw [hworld]
    exact .refl s.world

/-- The reports of any number of steps account for all changes of stats. -/
theorem sameStats_after (h : s.Sound) (n : Nat) :
    (s.after n).world.SameStats (s.world.replay ((s.told n).flatMap Report.occurrences)) := by
  induction n with
  | zero => exact .refl s.world
  | succ n ih =>
    have hlast := sameStats_step (h.after n)
    rw [told_succ, List.flatMap_append, World.replay_append]
    exact hlast.trans (ih.replay _)

/-- Replayed in its order, a report gives the stats of the world that it tells of: the report of a
year from the world before it, and all reports of a simulation from the world of its beginning. -/
theorem world_eq_replay :
    (∀ (rules : Rules) (year : Year) (world : World) (dice : σ),
      (rules.passYear year world dice).world.SameStats
        (world.replay (rules.passYear year world dice).fired)) ∧
    (∀ (c : Config) (catalog : Catalog) (dice : σ), catalog.Loaded →
      (∀ n, ((ofConfig c catalog dice).after n).world.SameStats
        ((World.beginning c.run.startYear).replay
          (((ofConfig c catalog dice).told n).flatMap Report.occurrences))) ∧
      (ofConfig c catalog dice).run.last.world.SameStats
        ((World.beginning c.run.startYear).replay
          ((ofConfig c catalog dice).run.reports.flatMap Report.occurrences))) := by
  constructor
  · exact Rules.sameStats_passYear
  · intro c catalog dice hcat
    have hsound := sound_ofConfig c hcat dice
    refine ⟨sameStats_after hsound, ?_⟩
    have hfault : (ofConfig c catalog dice).run.fault = none :=
      fault_runFor hsound (onTime_ofConfig c catalog dice) _
    obtain ⟨k, -, hlast, hreports⟩ := runFor_eq hfault
    unfold run
    rw [hlast, hreports]
    exact sameStats_after hsound k

theorem world_eq_replay_bells :
    Catalog.bells.Loaded ∧
    ((ofConfig {} .bells Rules.still).after 3).world.SameStats
      ((World.beginning 1000).replay
        (((ofConfig {} .bells Rules.still).told 3).flatMap Report.occurrences)) := by
  obtain ⟨-, hsteps⟩ := @world_eq_replay Generator _
  exact ⟨Catalog.bells_loaded, (hsteps {} .bells Rules.still Catalog.bells_loaded).1 3⟩

end Annals.Simulation
