import Annals.Proofs.Course.Resolved
import Annals.Simulation
/-!
# Steps of a simulation

The market and the dynasties draw from the dice of the world and tell of family events. Otherwise a
step is a year of the world at the clock's year, with the clock moved on when the year is finished.

* `Simulation.Stepped`: the ways in which a step can end.
* `Simulation.step_eq`: a step without a fault.
* `Simulation.step_withRules`: the same step under other rules.
* `Simulation.after`, `Simulation.told`: a number of steps, and the reports of the finished ones.
* `Simulation.runFor_eq`: a run without a fault is a number of steps.
* `Simulation.Sound`: the queue fits a loaded catalog, and no book is left open. Every step keeps
  this.
-/

namespace Annals

/-- The world events of a report. -/
def Report.occurrences (r : Report) : List Occurrence :=
  r.entries.filterMap fun
    | .world o => some o
    | .family _ => none

/-- A report has family events first. -/
theorem Report.occurrences_mk (year : Year) (families : List FamilyEvent)
    (fired : List Occurrence) :
    Report.occurrences { year, entries := families.map .family ++ fired.map .world } = fired := by
  simp [occurrences, List.filterMap_append, List.filterMap_map]

namespace Simulation

variable {σ : Type} [Dice σ]

/-! ## One step -/

/-- The years of the market and of the dynasties only draw from the dice and tell of families, as
far as the world can see. -/
theorem passDynasties_frame (s : Simulation σ) :
    ∃ families : List FamilyEvent,
      s.passMarket.passDynasties.book = s.book.append (families.map .family) ∧
      s.passMarket.passDynasties.world = s.world ∧
      s.passMarket.passDynasties.rules = s.rules ∧
      s.passMarket.passDynasties.clock = s.clock := ⟨_, rfl, rfl, rfl, rfl⟩

/-- The ways in which a step can end. Either way it goes through a year of the world, with the dice
as the families leave them. -/
inductive Stepped (s : Simulation σ) : Except CourseFault Report → Simulation σ → Prop where
  /-- The year is told, and the clock moves on. -/
  | told {next : Simulation σ} (families : List FamilyEvent) (dice : σ)
      (hfault : (s.rules.passYear s.clock.year s.world dice).fault = none)
      (hworld : next.world = (s.rules.passYear s.clock.year s.world dice).world)
      (hrules : next.rules = s.rules) (hclock : next.clock = s.clock.tick)
      (hbook : next.book = .blank) :
      Stepped s (.ok { year := s.clock.year
                       entries := families.map .family ++
                        (s.rules.passYear s.clock.year s.world dice).fired.map .world }) next
  /-- The year has a fault, and the clock stays. -/
  | broken {next : Simulation σ} (fault : CourseFault) (dice : σ)
      (hfault : (s.rules.passYear s.clock.year s.world dice).fault = some fault)
      (hworld : next.world = (s.rules.passYear s.clock.year s.world dice).world)
      (hrules : next.rules = s.rules) (hclock : next.clock = s.clock)
      (hbook : next.book = .blank) :
      Stepped s (.error fault) next

/-- From a book without a fault, the world goes through its year. -/
theorem passWorld_eq {s : Simulation σ} (hopen : s.book.fault = none) :
    s.passWorld =
      let p := s.rules.passYear s.clock.year s.world s.dice
      { s with
        world := p.world
        dice := p.dice
        book := match p.fault with
          | none => s.book.append (p.fired.map .world)
          | some fault => { s.book with fault := some fault } } := by
  unfold passWorld
  rw [hopen]
  rfl

/-- What the next year of the world brings, after that of the families. -/
def course (s : Simulation σ) : Passage σ :=
  s.rules.passYear s.clock.year s.world s.passMarket.passDynasties.dice

/-- A step without a fault tells of the families and of the world, and moves the clock on. -/
theorem step_eq {s : Simulation σ} (hblank : s.book = .blank) (hfault : s.course.fault = none) :
    s.step =
      (.ok { year := s.clock.year
             entries := s.passMarket.passDynasties.book.entries ++ s.course.fired.map .world },
        { s.passMarket.passDynasties with
          clock := s.clock.tick
          world := s.course.world
          dice := s.course.dice
          book := .blank }) := by
  have hopen : s.passMarket.passDynasties.book.fault = none :=
    (congrArg YearBook.fault hblank : s.book.fault = none)
  have hcourse : s.passMarket.passDynasties.rules.passYear s.passMarket.passDynasties.clock.year
      s.passMarket.passDynasties.world s.passMarket.passDynasties.dice = s.course := rfl
  unfold step
  rw [passWorld_eq hopen, hcourse]
  dsimp only
  rw [hfault]
  unfold YearBook.append YearBook.drain
  dsimp only
  rw [hopen]
  rfl

/-- A finished step tells what the families and the world have told. -/
theorem stepped {s : Simulation σ} (hblank : s.book = .blank) : Stepped s s.step.1 s.step.2 := by
  obtain ⟨families, hbook, hworld, hrules, hclock⟩ := passDynasties_frame s
  unfold step
  generalize s.passMarket.passDynasties = m at hbook hworld hrules hclock
  rw [hblank] at hbook
  have hopen : m.book.fault = none := by
    rw [hbook]
    rfl
  rw [passWorld_eq hopen]
  cases hfault : (s.rules.passYear s.clock.year s.world m.dice).fault with
  | none =>
    simp only [hrules, hclock, hworld, hbook, hfault]
    exact .told families m.dice hfault rfl rfl rfl rfl
  | some fault =>
    simp only [hrules, hclock, hworld, hfault]
    exact .broken fault m.dice hfault rfl rfl rfl rfl

/-- A step keeps the rules. -/
theorem rules_step (s : Simulation σ) : s.step.2.rules = s.rules := by
  have hworld : s.passMarket.passDynasties.passWorld.rules = s.rules := by
    unfold passWorld
    split
    · rfl
    · rfl
  unfold step
  generalize s.passMarket.passDynasties.passWorld = w at hworld
  obtain ⟨clock, dice, world, rules, roster, dynasties, market, settings, entries, fault⟩ := w
  cases fault with
  | none => exact hworld
  | some fault => exact hworld

/-! ## Other rules -/

/-- The simulation under other rules, with everything else as it is. -/
def withRules (s : Simulation σ) (rules : Rules) : Simulation σ := { s with rules }

/-- The world of a simulation goes the same way under other rules when its year does. -/
theorem passWorld_withRules {s : Simulation σ} {rules : Rules}
    (hyear : rules.passYear s.clock.year s.world s.dice =
      s.rules.passYear s.clock.year s.world s.dice) :
    (s.withRules rules).passWorld = s.passWorld.withRules rules := by
  unfold passWorld
  by_cases hclosed : s.book.fault.isSome
  · rw [if_pos hclosed, if_pos (show (s.withRules rules).book.fault.isSome from hclosed)]
  · rw [if_neg hclosed, if_neg (show ¬ (s.withRules rules).book.fault.isSome from hclosed)]
    unfold withRules
    dsimp only
    rw [hyear]

/-- A step goes the same way under other rules when the year of its world does, whatever the dice
are after the year of the families. -/
theorem step_withRules {s : Simulation σ} {rules : Rules}
    (hyear : ∀ dice : σ, rules.passYear s.clock.year s.world dice =
      s.rules.passYear s.clock.year s.world dice) :
    (s.withRules rules).step = (s.step.1, s.step.2.withRules rules) := by
  have hfamilies : (s.withRules rules).passMarket.passDynasties =
      s.passMarket.passDynasties.withRules rules := rfl
  -- The market and the dynasties leave the clock, the world and the rules as they are.
  obtain ⟨-, -, hworld, hrules, hclock⟩ := passDynasties_frame s
  rw [← hclock, ← hworld, ← hrules] at hyear
  unfold step
  rw [hfamilies, passWorld_withRules (hyear s.passMarket.passDynasties.dice)]
  obtain ⟨clock, dice, world, rules, roster, dynasties, market, settings, entries, fault⟩ :=
    s.passMarket.passDynasties.passWorld
  cases fault with
  | none => rfl
  | some fault => rfl

/-! ## Steps in a row -/

/-- The state after `n` steps, those that failed included. -/
def after (s : Simulation σ) : Nat → Simulation σ
  | 0 => s
  | n + 1 => (s.after n).step.2

/-- The reports of the first `n` steps; a step that failed has none. -/
def told (s : Simulation σ) : Nat → List Report
  | 0 => []
  | n + 1 => s.told n ++ (s.after n).step.1.toOption.toList

variable {s : Simulation σ}

@[simp] theorem after_zero : s.after 0 = s := rfl

@[simp] theorem after_succ (n : Nat) : s.after (n + 1) = (s.after n).step.2 := rfl

@[simp] theorem told_zero : s.told 0 = [] := rfl

@[simp] theorem told_succ (n : Nat) :
    s.told (n + 1) = s.told n ++ (s.after n).step.1.toOption.toList := rfl

/-- Simulations whose steps end alike tell the same. -/
theorem told_congr {t : Simulation σ} (h : ∀ n, (t.after n).step.1 = (s.after n).step.1) (n : Nat) :
    t.told n = s.told n := by
  induction n with
  | zero => rfl
  | succ n ih => rw [told_succ, told_succ, ih, h n]

theorem after_step (s : Simulation σ) (n : Nat) : s.step.2.after n = s.after (n + 1) := by
  induction n with
  | zero => rfl
  | succ n ih =>
    show (s.step.2.after n).step.2 = (s.after (n + 1)).step.2
    rw [ih]

theorem told_step (s : Simulation σ) (n : Nat) :
    s.step.1.toOption.toList ++ s.step.2.told n = s.told (n + 1) := by
  induction n with
  | zero => simp
  | succ n ih =>
    rw [told_succ n, told_succ (n + 1), ← List.append_assoc, ih, after_step]

/-- A run without a fault is a number of steps. -/
theorem runFor_eq {n : Nat} (h : (runFor n s).fault = none) :
    ∃ k ≤ n, (runFor n s).last = s.after k ∧ (runFor n s).reports = s.told k := by
  induction n generalizing s with
  | zero => exact ⟨0, Nat.le_refl 0, rfl, rfl⟩
  | succ n ih =>
    unfold runFor at h ⊢
    split at h
    case isTrue hdone =>
      rw [if_pos hdone]
      exact ⟨0, Nat.zero_le _, rfl, rfl⟩
    case isFalse hgoing =>
      rw [if_neg hgoing]
      rcases hstep : s.step with ⟨result, next⟩
      rw [hstep] at h
      cases result with
      | error fault => cases h
      | ok report =>
        obtain ⟨k, hk, hlast, hreports⟩ := ih h
        refine ⟨k + 1, Nat.succ_le_succ hk, ?_, ?_⟩
        · rw [← after_step, hstep]
          exact hlast
        · rw [← told_step, hstep]
          exact congrArg (report :: ·) hreports

/-! ## Steps under other rules -/

theorem rules_after (s : Simulation σ) (n : Nat) : (s.after n).rules = s.rules := by
  induction n with
  | zero => rfl
  | succ n ih => exact (rules_step _).trans ih

section WithRules

variable {rules : Rules} (hyear : ∀ year world (dice : σ),
  rules.passYear year world dice = s.rules.passYear year world dice)

include hyear

/-- Where all years go the same way under other rules, all steps do. -/
theorem after_withRules (n : Nat) :
    (s.withRules rules).after n = (s.after n).withRules rules ∧
    ((s.withRules rules).after n).step.1 = (s.after n).step.1 := by
  have hstep : ∀ k, ((s.after k).withRules rules).step =
      ((s.after k).step.1, (s.after k).step.2.withRules rules) := by
    intro k
    rw [← rules_after s k] at hyear
    exact step_withRules (hyear _ _)
  have hstate : (s.withRules rules).after n = (s.after n).withRules rules := by
    induction n with
    | zero => rfl
    | succ n ih => rw [after_succ, ih, hstep n, after_succ]
  refine ⟨hstate, ?_⟩
  rw [hstate, hstep n]

/-- Where all years go the same way under other rules, the same is told. -/
theorem told_withRules (n : Nat) : (s.withRules rules).told n = s.told n :=
  told_congr (fun k => (after_withRules hyear k).2) n

/-- Where all years go the same way under other rules, a run does. -/
theorem runFor_withRules (n : Nat) :
    runFor n (s.withRules rules) =
      { runFor n s with last := (runFor n s).last.withRules rules } := by
  induction n generalizing s with
  | zero => rfl
  | succ n ih =>
    have hstep : (s.withRules rules).step = (s.step.1, s.step.2.withRules rules) :=
      step_withRules (hyear _ _)
    have hnext := rules_step s
    unfold runFor
    by_cases hdone : s.clock.isFinished
    · rw [if_pos hdone, if_pos (show (s.withRules rules).clock.isFinished from hdone)]
    · rw [if_neg hdone, if_neg (show ¬ (s.withRules rules).clock.isFinished from hdone), hstep]
      rcases hresult : s.step with ⟨result, next⟩
      rw [hresult] at hnext
      cases result with
      | error fault => rfl
      | ok report =>
        rw [← hnext] at hyear
        simp only [ih hyear]

end WithRules

/-! ## Sound states -/

/-- A state in which no event is missing: the waiting triggers name events of a loaded catalog, and
nothing of an earlier year is left in the book. -/
structure Sound (s : Simulation σ) : Prop where
  loaded : s.rules.catalog.Loaded
  resolves : s.world.Resolves s.rules.catalog
  blank : s.book = .blank

theorem sound_ofConfig (c : Config) {catalog : Catalog} (hcat : catalog.Loaded) (dice : σ) :
    (ofConfig c catalog dice).Sound where
  loaded := hcat
  resolves := List.forall_mem_nil _
  blank := rfl

/-- A step keeps the rules, and the queue still fits them. -/
theorem Sound.step (h : s.Sound) : s.step.2.Sound := by
  have hview := stepped h.blank
  generalize s.step.1 = result, s.step.2 = next at hview ⊢
  cases hview with
  | told families dice hfault hworld hrules hclock hbook =>
    refine ⟨?_, ?_, hbook⟩
    · rw [hrules]
      exact h.loaded
    · rw [hrules, hworld]
      exact Rules.resolves_passYear h.loaded h.resolves hfault
  | broken fault dice hfault hworld hrules hclock hbook =>
    -- The year was refused as a past one, and the world is the old one.
    refine ⟨?_, ?_, hbook⟩
    · rw [hrules]
      exact h.loaded
    · rw [hrules, hworld, Rules.passYear_of_fault h.loaded h.resolves hfault]
      exact h.resolves

theorem Sound.after (h : s.Sound) (n : Nat) : (s.after n).Sound := by
  induction n with
  | zero => exact h
  | succ n ih => exact ih.step

end Simulation

end Annals
