import Annals.Proofs.Catalog.Reload
import Annals.Proofs.Course.Pruned
import Annals.Proofs.Simulation.Chapters
/-!
# Runs without dead events

The market and the dynasties draw from the dice of the world, so one more draw for an event that
cannot happen would change all of their history. There is none: a simulation goes the same way
whether the dead events of its catalog are there or not.

* `Simulation.withCatalog`: a simulation over another catalog.
* `Simulation.Alongside`: two simulations that differ in their catalogs only, before and after every
  step, and tell the same.
* `Simulation.step_pruned`: one step.
* `Simulation.dead_events_change_nothing`: all steps from a configuration.
-/

namespace Annals

namespace Simulation

variable {σ : Type}

/-- The simulation over another catalog, with everything else as it is. -/
def withCatalog (s : Simulation σ) (catalog : Catalog) : Simulation σ :=
  { s with rules := s.rules.withCatalog catalog }

variable [Dice σ]

/-- The second simulation is the first one over a catalog, after any number of steps, and each step
of it ends like that of the first. -/
structure Alongside (s t : Simulation σ) : Prop where
  state : ∀ n, t.after n = (s.after n).withCatalog t.rules.catalog
  result : ∀ n, (t.after n).step.1 = (s.after n).step.1
  told : ∀ n, t.told n = s.told n

section Pruned

variable {ids : List String} {c' : Catalog} {s : Simulation σ}

/-- A step without dead events is the same step. -/
theorem step_pruned (hdead : s.rules.catalog.Dead ids)
    (hpruned : Catalog.Pruned ids s.rules.catalog.categories c'.categories)
    (hclear : s.world.Clear ids) :
    (s.withCatalog c').step = (s.step.1, s.step.2.withCatalog c') := by
  have hnext : s.step.2.withCatalog c' = s.step.2.withRules (s.rules.withCatalog c') := by
    unfold withCatalog withRules
    rw [rules_step]
  rw [hnext]
  exact step_withRules (Rules.passYear_pruned hdead hpruned hclear s.clock.year)

/-- A step queues no trigger for a dead event. -/
theorem clear_step (hdead : s.rules.catalog.Dead ids)
    (hpruned : Catalog.Pruned ids s.rules.catalog.categories c'.categories)
    (hclear : s.world.Clear ids) (hblank : s.book = .blank) : s.step.2.world.Clear ids := by
  have hview := stepped hblank
  generalize s.step.1 = result, s.step.2 = next at hview ⊢
  cases hview with
  | told families dice hfault hworld hrules hclock hbook =>
    rw [hworld]
    exact Rules.clear_passYear hdead hpruned hclear s.clock.year dice
  | broken fault dice hfault hworld hrules hclock hbook =>
    rw [hworld]
    exact Rules.clear_passYear hdead hpruned hclear s.clock.year dice

/-- Two simulations go alongside when the catalog of one is the other's without dead events. -/
theorem alongside_withCatalog (hdead : s.rules.catalog.Dead ids)
    (hpruned : Catalog.Pruned ids s.rules.catalog.categories c'.categories)
    (hclear : s.world.Clear ids) (hblank : s.book = .blank) : s.Alongside (s.withCatalog c') := by
  have hafter : ∀ n, (s.withCatalog c').after n = (s.after n).withCatalog c' ∧
      (s.after n).world.Clear ids ∧ (s.after n).rules = s.rules := by
    intro n
    induction n with
    | zero => exact ⟨rfl, hclear, rfl⟩
    | succ n ih =>
      obtain ⟨hstate, hclear, hrules⟩ := ih
      rw [← hrules] at hdead hpruned
      have hopen := book_after hblank n
      refine ⟨?_, clear_step hdead hpruned hclear hopen, (rules_step _).trans hrules⟩
      rw [after_succ, hstate, step_pruned hdead hpruned hclear]
      rfl
  have hresult : ∀ n, ((s.withCatalog c').after n).step.1 = (s.after n).step.1 := by
    intro n
    obtain ⟨hstate, hclear, hrules⟩ := hafter n
    rw [← hrules] at hdead hpruned
    rw [hstate, step_pruned hdead hpruned hclear]
  exact ⟨fun n => (hafter n).1, hresult, told_congr hresult⟩

end Pruned

/-- Dead events do not disturb a run. Without them, and without the categories that have held
nothing else, a loaded catalog can still be loaded, and a simulation over it goes the same way:
after every step everything but the catalog is the same, the state of the dice included, and so is
what is told. When all events are dead, the simulation goes the way it goes over the empty
catalog. -/
theorem dead_events_change_nothing {catalog : Catalog} (hcat : catalog.Loaded) {ids : List String}
    (hdead : catalog.Dead ids) (c : Config) (dice : σ) :
    (catalog.without ids).Loaded ∧
    (ofConfig c catalog dice).Alongside (ofConfig c (catalog.without ids) dice) ∧
    ((∀ d ∈ catalog.events, d.id ∈ ids) →
      (ofConfig c catalog dice).Alongside (ofConfig c .empty dice)) := by
  have hclear : (ofConfig c catalog dice).world.Clear ids := List.forall_mem_nil _
  have hwithout := catalog.pruned_without ids
  refine ⟨hcat.pruned hwithout hdead.unnamed, ?_, fun hall => ?_⟩
  · exact alongside_withCatalog (s := ofConfig c catalog dice) hdead hwithout hclear rfl
  · have hempty := Catalog.pruned_empty hall
    exact alongside_withCatalog (s := ofConfig c catalog dice) hdead hempty hclear rfl

end Simulation

/-! ## A catalog with dead events -/

namespace Catalog

/-- A knell that only another knell could set off. -/
def knell : Definition where
  id := "knell"
  name := "Knell"
  description := ""
  category := "omens"
  conditions := []
  effects := [.adjust { side := .region, name := "Coast" } "trade" (-9)]
  followUps := [{ event := "knell", delay := 1, chance := 1.0 },
    { event := "bell", delay := 0, chance := 1.0 }]
  followUpOnly := true
  details := {}

/-- A silence that waits for something that has no meaning. -/
def hush : Definition where
  id := "hush"
  name := "Hush"
  description := ""
  category := "silence"
  conditions := [.year .ge 0, .named "endless_night"]
  effects := []
  followUps := []
  followUpOnly := false
  details := {}

/-- The bells with a dead event among them and a dead category between them. -/
def muffled : Catalog :=
  { categories := [{ name := "omens", events := [bell, knell, echo] },
      { name := "silence", events := [hush] }, { name := "storms", events := [gale] }] }

/-- The silence alone. -/
def silence : Catalog := { categories := [{ name := "silence", events := [hush] }] }

theorem muffled_loaded : muffled.Loaded := ⟨muffled.document, rfl⟩

theorem silence_loaded : silence.Loaded := ⟨silence.document, rfl⟩

/-- Nothing is left but the bells. -/
theorem without_muffled : muffled.without ["knell", "hush"] = bells := by decide

end Catalog

theorem Simulation.dead_events_change_nothing_muffled :
    Catalog.muffled.Loaded ∧ Catalog.muffled.Dead ["knell", "hush"] ∧
    (ofConfig {} .muffled Rules.still).Alongside (ofConfig {} .bells Rules.still) ∧
    Catalog.silence.Loaded ∧ Catalog.silence.Dead ["hush"] ∧
    (ofConfig {} .silence Rules.still).Alongside (ofConfig {} .empty Rules.still) := by
  have hmuffled : Catalog.muffled.Dead ["knell", "hush"] :=
    { unnamed := by decide
      barred := by
        simp [Catalog.muffled, Catalog.events, Catalog.bell, Catalog.knell, Catalog.echo,
          Catalog.hush, Catalog.gale, Condition.NeverHolds, Condition.named?, Condition.library] }
  have hsilence : Catalog.silence.Dead ["hush"] :=
    { unnamed := by decide
      barred := by
        simp [Catalog.silence, Catalog.events, Catalog.hush, Condition.NeverHolds,
          Condition.named?, Condition.library] }
  obtain ⟨-, hbells, -⟩ := dead_events_change_nothing Catalog.muffled_loaded hmuffled {} Rules.still
  obtain ⟨-, -, hempty⟩ := dead_events_change_nothing Catalog.silence_loaded hsilence {} Rules.still
  rw [Catalog.without_muffled] at hbells
  exact ⟨Catalog.muffled_loaded, hmuffled, hbells, Catalog.silence_loaded, hsilence,
    hempty (by decide)⟩

end Annals
