import Annals.Proofs.Course.Faults
import Annals.Proofs.Simulation.Years
/-!
# Spans of years

Delays of follow-ups and lengths of runs are counts of years that the calendar may not hold. A count
is held at the largest step of the calendar before it is added to a year, and the sum is held at the
last year. For years before zero this is less than the sum held once, when the count is above the
largest step.

* `Rules.exists_follows`: an event that fired has queued its delayed follow-ups.
* `Simulation.spans_held`: when delayed follow-ups are due, and how long runs are.
-/

namespace Annals

/-! ## Delays -/

namespace Rules

variable {σ : Type} [Dice σ] {rules : Rules} {year : Year} {world : World}

omit [Dice σ] in
/-- All events of a chain are found in the catalog under their ids. -/
theorem findable (hcat : rules.catalog.Loaded) (category : String) :
    ChainLaw rules category fun _ (_ : σ) p =>
      ∀ o ∈ p.fired, (rules.catalog.find? o.id).isSome = true where
  toComposes := .forall_fired _
  struck := by
    intro d hd origin world dice
    refine List.forall_mem_singleton.2 ?_
    show (rules.catalog.find? d.id).isSome = true
    rw [hcat.find?_of_mem hd]
    rfl
  queued := fun _ _ _ _ _ => List.forall_mem_nil _
  unknown := fun _ _ _ _ _ _ => List.forall_mem_nil _

/-- An event that fired in a year is defined by the catalog, and each of its delayed follow-ups has
a trigger in the queue. -/
theorem exists_follows (hcat : rules.catalog.Loaded) {dice : σ}
    (h : (rules.passYear year world dice).fault = none) {o : Occurrence}
    (ho : o ∈ (rules.passYear year world dice).fired) :
    ∃ d, rules.catalog.find? o.id = some d ∧ ∀ f ∈ d.followUps, 0 < f.delay →
      { event := f.event, due := year.later f.delay, chance := f.chance, category := o.category
        scheduledBy := o.id, scheduledIn := year } ∈
          (rules.passYear year world dice).world.queue := by
  have hfound := forall_fired_passYear (not_lt_of_passYear h)
    (fun t _ => (findable hcat t.category).tryTrigger fun _ _ _ _ => List.forall_mem_nil _)
    (fun c hc => (findable hcat c.name).scan hc) dice o ho
  obtain ⟨d, hd⟩ := Option.isSome_iff_exists.1 hfound
  refine ⟨d, hd, fun f hf hdelay => ?_⟩
  obtain ⟨added, hqueue, hadded⟩ := queue_passYear hcat h
  rw [hqueue]
  refine List.mem_append_right _ (hadded.mem_iff.2 (List.mem_flatMap.2 ⟨o, ho, ?_⟩))
  unfold queuedBy
  rw [hd]
  exact List.mem_map.2 ⟨f, List.mem_filter.2 ⟨hf, decide_eq_true hdelay⟩, rfl⟩

end Rules

/-! ## Runs -/

namespace Simulation

variable {σ : Type} [Dice σ] {s : Simulation σ}

/-- As many reports are told as steps are taken. -/
theorem length_told (h : s.Sound) (htime : s.OnTime) {n : Nat} (hn : n ≤ s.clock.remaining) :
    (s.told n).length = n := by
  simpa using congrArg List.length (years_told h htime hn)

/-- Delays and lengths of runs are counted in the same way: the count is held at the largest step,
and the sum at the last year. In a year `y`, an event that fires queues a trigger for each of its
delayed follow-ups, due that many years later, and whatever joins the queue has such a delay, which
only the end of the calendar cuts short. A clock that starts at `y` with `n` years stops that many
years later, and a run over a loaded catalog takes a step for each year between. This is the sum
held once exactly when the year is not negative or the count is not above the largest step. -/
theorem spans_held (y : Year) (n : UInt32) :
    (∀ {σ : Type} [Dice σ] (rules : Rules) (world : World) (dice : σ),
      (rules.catalog.Loaded → (rules.passYear y world dice).fault = none →
        ∀ o ∈ (rules.passYear y world dice).fired,
          ∃ d, rules.catalog.find? o.id = some d ∧ ∀ f ∈ d.followUps, 0 < f.delay →
            ∃ t ∈ (rules.passYear y world dice).world.queue,
              t.event = f.event ∧ t.chance = f.chance ∧ t.category = o.category ∧
              t.scheduledBy = o.id ∧ t.scheduledIn = y ∧
              t.due.toInt =
                min (y.toInt + min (f.delay.toNat : Int) (2 ^ 31 - 1)) (2 ^ 31 - 1)) ∧
      (¬ y < world.year → ∃ added : List Trigger,
        (rules.passYear y world dice).world.queue =
          world.queue.filter (fun t => y < t.due) ++ added ∧
        ∀ t ∈ added, ∃ d ∈ rules.catalog.events, ∃ f ∈ d.followUps, 0 < f.delay ∧
          t.event = f.event ∧ t.chance = f.chance ∧ t.scheduledBy = d.id ∧ t.scheduledIn = y ∧
          t.due.toInt = min (y.toInt + min (f.delay.toNat : Int) (2 ^ 31 - 1)) (2 ^ 31 - 1) ∧
          (min (f.delay.toNat : Int) (2 ^ 31 - 1) ≤ t.due.toInt - y.toInt ∨
            t.due = Year.last))) ∧
    (Clock.start y n).year = y ∧
    (Clock.start y n).stop.toInt =
      min (y.toInt + min (n.toNat : Int) (2 ^ 31 - 1)) (2 ^ 31 - 1) ∧
    (∀ {σ : Type} [Dice σ] (c : Config) (catalog : Catalog) (dice : σ),
      c.run.startYear = y → c.run.years = n → catalog.Loaded →
        (ofConfig c catalog dice).clock = .start y n ∧
        (ofConfig c catalog dice).run.fault = none ∧
        ((ofConfig c catalog dice).run.reports.length : Int) =
          min (min (n.toNat : Int) (2 ^ 31 - 1)) (2 ^ 31 - 1 - y.toInt) ∧
        (ofConfig c catalog dice).run.last =
          (ofConfig c catalog dice).after (ofConfig c catalog dice).run.reports.length) ∧
    (min (y.toInt + min (n.toNat : Int) (2 ^ 31 - 1)) (2 ^ 31 - 1) =
        min (y.toInt + n.toNat) (2 ^ 31 - 1) ↔
      0 ≤ y.toInt ∨ (n.toNat : Int) ≤ 2 ^ 31 - 1) := by
  refine ⟨fun rules world dice => ⟨fun hcat hfault o ho => ?_, fun hyear => ?_⟩, rfl,
    Year.toInt_later y n, fun c catalog dice hstart hyears hcat => ?_, ?_⟩
  · obtain ⟨d, hd, hfollows⟩ := Rules.exists_follows hcat hfault ho
    refine ⟨d, hd, fun f hf hdelay => ⟨_, hfollows f hf hdelay, rfl, rfl, rfl, rfl, rfl, ?_⟩⟩
    exact Year.toInt_later y f.delay
  · obtain ⟨added, hqueue, hadded⟩ := rules.queue_extends hyear dice
    refine ⟨added, hqueue, fun t ht => ?_⟩
    obtain ⟨d, hd, f, hf, hdelay, category, rfl⟩ := hadded t ht
    have hdue := Year.toInt_later y f.delay
    refine ⟨d, hd, f, hf, hdelay, rfl, rfl, rfl, rfl, hdue, ?_⟩
    show _ ≤ (y.later f.delay).toInt - y.toInt ∨ y.later f.delay = Year.last
    rw [← Int32.toInt_inj, Year.toInt_last, hdue]
    omega
  · have hsound := sound_ofConfig c hcat dice
    have htime := onTime_ofConfig c catalog dice
    have hclock : (ofConfig c catalog dice).clock = .start y n := by
      rw [← hstart, ← hyears]
      rfl
    have hrun := runFor_eq_after hsound htime (Nat.le_refl _)
    have hlength := length_told hsound htime (Nat.le_refl _)
    change (ofConfig c catalog dice).run = _ at hrun
    rw [hrun]
    refine ⟨hclock, rfl, ?_, ?_⟩
    · show ((told _ _).length : Int) = _
      rw [hlength, hclock]
      exact Clock.remaining_start y n
    · show _ = after _ (told _ _).length
      rw [hlength]
  · rw [← Year.toInt_later]
    exact Year.toInt_later_eq_iff y n

/-- A comet that comes back after more years than the calendar can step. -/
def comet : Definition where
  id := "comet"
  name := "Great Comet"
  description := ""
  category := "omens"
  conditions := [.year .ge (-10)]
  effects := []
  followUps := [{ event := "comet", delay := 2147483653, chance := 1.0 }]
  followUpOnly := false
  details := {}

/-- A catalog with that event alone. -/
def comets : Catalog := { categories := [{ name := "omens", events := [comet] }] }

/-- The document of `comets`. -/
def cometsDocument : Json :=
  .obj [("events", .obj [
    ("omens", .obj [
      ("comet", .obj [("name", .str "Great Comet"),
        ("conditions", .arr [
          .obj [("type", .str "year"), ("operator", .str ">="), ("value", .int (-10))]]),
        ("effects", .arr []),
        ("followup_events", .arr [
          .obj [("id", .str "comet"), ("delay", .int 2147483653),
            ("probability", .float 1.0)]])])])])]

theorem comets_loaded : comets.Loaded := ⟨cometsDocument, rfl⟩

/-- The rules of `comets`. -/
def skies : Rules := { catalog := comets, settings := { maxDepth := 2, categoryChance := 1.0 } }

/-- A run from a year before zero, of as many years. -/
def farDays : Config :=
  { run := { startYear := -10, years := 2147483653, dynasties := ["House Nerdival"] } }

theorem spans_held_far :
    comets.Loaded ∧ (skies.passYear (-10) (.blank (-10)) Rules.still).fault = none ∧
    (∃ t ∈ (skies.passYear (-10) (.blank (-10)) Rules.still).world.queue,
      t.event = "comet" ∧ t.scheduledBy = "comet" ∧ t.scheduledIn = -10 ∧
      t.due.toInt = 2147483637) ∧
    ¬ (-10 : Year) < (World.blank (-10)).year ∧
    (∃ added : List Trigger,
      (skies.passYear (-10) (.blank (-10)) Rules.still).world.queue = added ∧
      ∀ t ∈ added, t.due.toInt - (-10) = 2147483647) ∧
    (ofConfig farDays comets Rules.still).clock = .start (-10) 2147483653 ∧
    (ofConfig farDays comets Rules.still).run.fault = none ∧
    (ofConfig farDays comets Rules.still).run.reports.length = 2147483647 := by
  obtain ⟨hcourse, -, -, hruns, -⟩ := spans_held (-10) 2147483653
  have hfault : (skies.passYear (-10) (.blank (-10)) Rules.still).fault = none := by decide +kernel
  have hyear : ¬ (-10 : Year) < (World.blank (-10)).year := by decide
  obtain ⟨hfollows, hadded⟩ := hcourse skies (.blank (-10)) Rules.still
  have hcomet : ∃ o ∈ (skies.passYear (-10) (.blank (-10)) Rules.still).fired, o.id = "comet" := by
    decide +kernel
  obtain ⟨o, ho, hid⟩ := hcomet
  obtain ⟨d, hd, hqueued⟩ := hfollows comets_loaded hfault o ho
  have hfind : skies.catalog.find? "comet" = some comet := by decide +kernel
  rw [hid, hfind] at hd
  cases hd
  obtain ⟨t, ht, hevent, -, -, hby, hin, hdue⟩ :=
    hqueued _ (List.mem_singleton.2 rfl) (by decide)
  obtain ⟨added, hqueue, hadded⟩ := hadded hyear
  have hclock := hruns farDays comets Rules.still rfl rfl comets_loaded
  obtain ⟨hclock, hrun, hlength, -⟩ := hclock
  refine ⟨comets_loaded, hfault, ⟨t, ht, hevent, hby.trans hid, hin, ?_⟩, hyear,
    ⟨added, hqueue, ?_⟩, hclock, hrun, ?_⟩
  · rw [hdue]
    decide
  · intro t ht
    obtain ⟨d, hd, f, hf, -, -, -, -, -, hdue, -⟩ := hadded t ht
    cases List.mem_singleton.1 hd
    cases List.mem_singleton.1 hf
    rw [hdue]
    decide
  · have hcount : min (min ((2147483653 : UInt32).toNat : Int) (2 ^ 31 - 1))
        (2 ^ 31 - 1 - (-10 : Year).toInt) = 2147483647 := by decide
    rw [hcount] at hlength
    exact Int.ofNat_inj.1 hlength

/-- The sum held once is a later year than those of the clock and of the trigger. -/
theorem spans_cut_short :
    (Clock.start (-10) 2147483653).stop.toInt ≠
      min ((-10 : Year).toInt + (2147483653 : UInt32).toNat) (2 ^ 31 - 1) ∧
    ∃ t ∈ (skies.passYear (-10) (.blank (-10)) Rules.still).world.queue,
      t.event = "comet" ∧ t.scheduledIn = -10 ∧
      t.due.toInt ≠ min ((-10 : Year).toInt + (2147483653 : UInt32).toNat) (2 ^ 31 - 1) := by
  decide +kernel

end Simulation

end Annals
