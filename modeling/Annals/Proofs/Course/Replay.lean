import Annals.Proofs.Course.Passage
import Annals.Proofs.World.Replay
/-!
# A year as the replay of its report

The events of a year change the world one after the other, wherever they fire: in the trial of a
trigger, in a scan, or deep in a chain. So the report of a year, replayed, gives the stats that the
year leaves.

* `Rules.keepsYear`, `Rules.tellsYear`, `Rules.replays`: what every move of a chain keeps.
* `Rules.year_passYear`, `Rules.forall_year_passYear`: the world is in the year that was gone
  through, and the events are told of that year.
* `Rules.sameStats_passYear`: the report of a year accounts for all changes of stats.
-/

namespace Annals

/-! ## The laws -/

namespace Passage.Composes

variable {σ : Type}

theorem keepsYear :
    Composes fun world (_ : σ) (p : Passage σ) => p.world.year = world.year where
  quiet := fun _ _ _ => rfl
  append := fun hp _ hq => hq.trans hp

theorem tellsYear (year : Year) :
    Composes fun world (_ : σ) (p : Passage σ) => world.year = year →
      p.world.year = year ∧ ∀ o ∈ p.fired, o.year = year where
  quiet := fun _ _ _ hyear => ⟨hyear, List.forall_mem_nil _⟩
  append := by
    intro world dice p q hp _ hq hyear
    obtain ⟨hmiddle, hfirst⟩ := hp hyear
    obtain ⟨hlast, hsecond⟩ := hq hmiddle
    exact ⟨hlast, List.forall_mem_append.2 ⟨hfirst, hsecond⟩⟩

theorem replays :
    Composes fun world (_ : σ) (p : Passage σ) => p.world.SameStats (world.replay p.fired) where
  quiet := fun world _ _ => .refl world
  append := by
    intro world dice p q hp _ hq
    rw [World.replay_append]
    exact hq.trans (hp.replay q.fired)

end Passage.Composes

namespace Rules

variable {σ : Type}

/-- No move of a chain changes the year. -/
theorem keepsYear (rules : Rules) (category : String) :
    ChainLaw rules category fun world (_ : σ) p => p.world.year = world.year where
  toComposes := .keepsYear
  struck := fun _ _ world _ => Effect.year_applyAll world _
  queued := fun _ _ _ _ _ => rfl
  unknown := fun _ _ _ _ _ _ => rfl

/-- Every move of a chain is told of the world's year. -/
theorem tellsYear (rules : Rules) (category : String) (year : Year) :
    ChainLaw rules category fun world (_ : σ) p => world.year = year →
      p.world.year = year ∧ ∀ o ∈ p.fired, o.year = year where
  toComposes := .tellsYear year
  struck := by
    intro d _ origin world dice hyear
    have hafter := (Effect.year_applyAll world d.effects).trans hyear
    exact ⟨hafter, List.forall_mem_singleton.2 hafter⟩
  queued := fun _ _ _ _ _ hyear => ⟨hyear, List.forall_mem_nil _⟩
  unknown := fun _ _ _ _ _ _ hyear => ⟨hyear, List.forall_mem_nil _⟩

/-- Every move of a chain changes stats as its report says. -/
theorem replays (rules : Rules) (category : String) :
    ChainLaw rules category fun world (_ : σ) p =>
      p.world.SameStats (world.replay p.fired) where
  toComposes := .replays
  struck := fun _ _ _ _ => .refl _
  queued := fun _ _ _ _ _ => ⟨rfl, rfl⟩
  unknown := fun _ _ _ world _ _ => .refl world

variable [Dice σ] {rules : Rules} {year : Year} {world : World}

/-! ## The year of the world -/

theorem year_tryTrigger (rules : Rules) (t : Trigger) (world : World) (dice : σ) :
    (rules.tryTrigger t world dice).world.year = world.year :=
  (keepsYear rules t.category).tryTrigger (fun _ _ _ _ => rfl) world dice

theorem year_scan {c : Category} (hc : c ∈ rules.catalog.categories) (world : World) (dice : σ) :
    (rules.scan c world dice).world.year = world.year :=
  (keepsYear rules c.name).scan hc world dice

/-- A year that is gone through becomes the world's year. -/
theorem year_passYear (rules : Rules) (h : ¬ year < world.year) (dice : σ) :
    (rules.passYear year world dice).world.year = year := by
  have hlaw : (rules.passYear year world dice).world.year = (world.entered year).year :=
    passYear_law .keepsYear h (fun t _ => year_tryTrigger rules t)
      (fun c hc => year_scan hc) dice
  exact hlaw

/-- What fires in a year is told of that year. -/
theorem forall_year_passYear (rules : Rules) (year : Year) (world : World) (dice : σ) :
    ∀ o ∈ (rules.passYear year world dice).fired, o.year = year := by
  by_cases h : year < world.year
  · rw [passYear_of_lt h]
    exact List.forall_mem_nil _
  · have htry := fun (t : Trigger) (_ : t ∈ world.due year) =>
      (tellsYear (σ := σ) rules t.category year).tryTrigger
        (fun _ _ _ _ hyear => ⟨hyear, List.forall_mem_nil _⟩)
    have hscan := fun (c : Category) (hc : c ∈ rules.catalog.categories) =>
      (tellsYear (σ := σ) rules c.name year).scan hc
    exact (passYear_law (.tellsYear year) h htry hscan dice rfl).2

/-! ## The stats of the world -/

theorem sameStats_tryTrigger (rules : Rules) (t : Trigger) (world : World) (dice : σ) :
    (rules.tryTrigger t world dice).world.SameStats
      (world.replay (rules.tryTrigger t world dice).fired) :=
  (replays rules t.category).tryTrigger (fun _ world _ _ => .refl world) world dice

theorem sameStats_scan {c : Category} (hc : c ∈ rules.catalog.categories) (world : World)
    (dice : σ) :
    (rules.scan c world dice).world.SameStats (world.replay (rules.scan c world dice).fired) :=
  (replays rules c.name).scan hc world dice

/-- The report of a year, replayed from the world before it, gives the stats after it. -/
theorem sameStats_passYear (rules : Rules) (year : Year) (world : World) (dice : σ) :
    (rules.passYear year world dice).world.SameStats
      (world.replay (rules.passYear year world dice).fired) := by
  by_cases h : year < world.year
  · rw [passYear_of_lt h]
    exact .refl world
  · have hlaw : (rules.passYear year world dice).world.SameStats
        ((world.entered year).replay (rules.passYear year world dice).fired) :=
      passYear_law .replays h (fun t _ => sameStats_tryTrigger rules t)
        (fun c hc => sameStats_scan hc) dice
    have hentered : (world.entered year).SameStats world := ⟨rfl, rfl⟩
    exact hlaw.trans (hentered.replay _)

end Rules

end Annals
