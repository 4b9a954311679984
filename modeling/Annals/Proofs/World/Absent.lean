import Annals.Event
/-!
# Absent stats

An absent stat reads as the number zero. So a world can lack a stat where another one has a zero,
and nothing that looks at stats can tell them apart: a condition reads a zero either way, and an
effect that moves the stat starts from zero and leaves the same number.

* `World.ZeroEquivalent`: worlds that differ in absent stats against zeros only.
* `World.reading`: a stat as it is read; `zeroEquivalent_iff`: equivalent worlds read alike.
* `ZeroEquivalent.applyAll`, `ZeroEquivalent.allHold`: effects keep the equivalence, conditions
  respect it.
-/

namespace Annals

namespace World

/-- Two worlds that have each stat in common, unless one of them lacks it and the other one has it
as the number zero. -/
structure ZeroEquivalent (w v : World) : Prop where
  year : w.year = v.year
  queue : w.queue = v.queue
  stats : ∀ side owner stat,
    w.stat? side owner stat = v.stat? side owner stat ∨
      (w.stat? side owner stat = none ∧ v.stat? side owner stat = some (.number 0)) ∨
      (w.stat? side owner stat = some (.number 0) ∧ v.stat? side owner stat = none)

/-- A stat as it is read: an absent one is the number zero. -/
def reading (w : World) (side : Side) (owner stat : String) : Stat :=
  (w.stat? side owner stat).getD (.number 0)

@[simp] theorem reading_setStat_self (w : World) (side : Side) (owner stat : String)
    (value : Stat) : (w.setStat side owner stat value).reading side owner stat = value := by
  simp [reading]

theorem reading_setStat_ne {side side' : Side} {owner owner' stat stat' : String}
    (h : (side', owner', stat') ≠ (side, owner, stat)) (w : World) (value : Stat) :
    (w.setStat side owner stat value).reading side' owner' stat' =
      w.reading side' owner' stat' := by
  unfold reading
  rw [stat?_setStat_ne h]

/-- Worlds are equivalent when they have the same year and queue and read alike. -/
theorem zeroEquivalent_iff {w v : World} :
    w.ZeroEquivalent v ↔ w.year = v.year ∧ w.queue = v.queue ∧
      ∀ side owner stat, w.reading side owner stat = v.reading side owner stat := by
  unfold reading
  constructor
  · rintro ⟨hyear, hqueue, hstats⟩
    refine ⟨hyear, hqueue, fun side owner stat => ?_⟩
    rcases hstats side owner stat with hsame | ⟨hw, hv⟩ | ⟨hw, hv⟩
    · rw [hsame]
    · rw [hw, hv]
      rfl
    · rw [hw, hv]
      rfl
  · rintro ⟨hyear, hqueue, hreading⟩
    refine ⟨hyear, hqueue, fun side owner stat => ?_⟩
    have hread := hreading side owner stat
    cases hw : w.stat? side owner stat with
    | none =>
      cases hv : v.stat? side owner stat with
      | none => exact .inl rfl
      | some b =>
        rw [hw, hv] at hread
        exact .inr (.inl ⟨rfl, congrArg some hread.symm⟩)
    | some a =>
      cases hv : v.stat? side owner stat with
      | none =>
        rw [hw, hv] at hread
        exact .inr (.inr ⟨congrArg some hread, rfl⟩)
      | some b =>
        rw [hw, hv] at hread
        exact .inl (congrArg some hread)

namespace ZeroEquivalent

variable {w v : World}

theorem reading (h : w.ZeroEquivalent v) (side : Side) (owner stat : String) :
    w.reading side owner stat = v.reading side owner stat :=
  (zeroEquivalent_iff.1 h).2.2 side owner stat

/-- Writing down a zero that is absent gives an equivalent world. -/
theorem setStat_zero {side : Side} {owner stat : String} (h : w.stat? side owner stat = none) :
    w.ZeroEquivalent (w.setStat side owner stat (.number 0)) := by
  rw [zeroEquivalent_iff]
  refine ⟨by simp [World.setStat], by simp [World.setStat], fun side' owner' stat' => ?_⟩
  by_cases hcell : (side', owner', stat') = (side, owner, stat)
  · cases hcell
    rw [reading_setStat_self]
    unfold World.reading
    rw [h]
    rfl
  · rw [reading_setStat_ne hcell]

/-! ## Effects -/

/-- Worlds that read alike still do after the same stat is set in both. -/
theorem setStat (h : w.ZeroEquivalent v) (side : Side) (owner stat : String) (value : Stat) :
    (w.setStat side owner stat value).ZeroEquivalent (v.setStat side owner stat value) := by
  rw [zeroEquivalent_iff]
  refine ⟨?_, ?_, fun side' owner' stat' => ?_⟩
  · simpa [World.setStat] using h.year
  · simpa [World.setStat] using h.queue
  · by_cases hcell : (side', owner', stat') = (side, owner, stat)
    · cases hcell
      rw [reading_setStat_self, reading_setStat_self]
    · rw [reading_setStat_ne hcell, reading_setStat_ne hcell]
      exact h.reading side' owner' stat'

/-- Moving a stat looks at its reading only: a text stays, a number is moved from there. -/
theorem adjustStat_eq_of_reading (target : Target) (stat : String) (amount : Int64) (w : World) :
    (Effect.adjustStat target stat amount w).1 =
      match w.reading target.side target.name stat with
      | .text _ => w
      | .number n => w.setStat target.side target.name stat
          (.number (Effect.clamp (Effect.addSaturated n amount))) := by
  unfold Effect.adjustStat World.reading
  cases hstat : w.stat? target.side target.name stat with
  | none => rfl
  | some value =>
    cases value with
    | number n => rfl
    | text s => rfl

theorem adjustStat (h : w.ZeroEquivalent v) (target : Target) (stat : String) (amount : Int64) :
    (Effect.adjustStat target stat amount w).1.ZeroEquivalent
      (Effect.adjustStat target stat amount v).1 := by
  rw [adjustStat_eq_of_reading, adjustStat_eq_of_reading, h.reading target.side target.name stat]
  cases v.reading target.side target.name stat with
  | number n => exact h.setStat ..
  | text s => exact h

theorem apply (h : w.ZeroEquivalent v) (e : Effect) :
    (Effect.apply w e).1.ZeroEquivalent (Effect.apply v e).1 := by
  cases e with
  | adjust target stat amount => exact h.adjustStat target stat amount
  | appoint faction leader => exact h.setStat .faction faction Effect.leaderStat (.text leader)
  | unknown kind => exact h

/-- Effects keep worlds equivalent. -/
theorem applyAll (h : w.ZeroEquivalent v) (es : List Effect) :
    (Effect.applyAll w es).1.ZeroEquivalent (Effect.applyAll v es).1 := by
  induction es generalizing w v with
  | nil => exact h
  | cons e es ih => exact ih (h.apply e)

/-! ## Conditions -/

theorem testHolds (h : w.ZeroEquivalent v) (test : StatTest) : test.holds w = test.holds v :=
  congrArg (fun stat => stat.compares test.comparison test.value)
    (h.reading test.side test.owner test.stat)

theorem holds (h : w.ZeroEquivalent v) (c : Condition) :
    Condition.holds w c = Condition.holds v c := by
  cases c with
  | year comparison value => simp [Condition.holds, h.year]
  | stat test => exact h.testHolds test
  | named name => simp [Condition.holds, h.testHolds]
  | unknown kind => rfl

/-- Conditions do not tell equivalent worlds apart. -/
theorem allHold (h : w.ZeroEquivalent v) (cs : List Condition) :
    Condition.allHold w cs = Condition.allHold v cs := by
  have hsame : Condition.holds w = Condition.holds v := funext h.holds
  unfold Condition.allHold
  rw [hsame]

/-! ## The queue -/

theorem schedule (h : w.ZeroEquivalent v) (t : Trigger) :
    (w.schedule t).ZeroEquivalent (v.schedule t) where
  year := h.year
  queue := by
    show w.queue ++ _ = v.queue ++ _
    rw [h.queue, h.year]
  stats := h.stats

end ZeroEquivalent

end World

end Annals
