import Annals.Calendar
import Mathlib.Algebra.Group.Int.Defs
/-!
# Sums of years

* `Year.toInt_later`: the year some years on, as a sum of integers that is held twice.
* `Year.toInt_later_eq_iff`: when that is the sum held once.
* `Year.toInt_succ`: the next year.
* `Year.lt_later`: a wait of at least one year ends after the present year, the last one apart.
* `Clock.toInt_tick`: a clock with a year left does not run over the end of the calendar.
* `Clock.remaining_tick`: it has a year less left afterwards.
* `Clock.remaining_start`: the number of years that a clock starts with.
-/

namespace Annals

namespace Year

theorem toInt_last : last.toInt = 2 ^ 31 - 1 := Int32.toInt_maxValue

theorem toInt_addSaturated (a b : Year) :
    (addSaturated a b).toInt = max (-2 ^ 31) (min (2 ^ 31 - 1) (a.toInt + b.toInt)) := by
  unfold addSaturated
  rw [Int32.toInt_minValue, Int32.toInt_maxValue]
  rw [Int32.toInt_ofInt_of_le (by omega) (by omega)]

theorem toInt_step (count : UInt32) :
    (step count).toInt = min (count.toNat : Int) (2 ^ 31 - 1) := by
  unfold step
  rw [toInt_last]
  rw [Int32.toInt_ofNat_of_lt (by omega)]
  omega

/-- The year some years on: first the count is held at the largest step, then the sum at the last
year of the calendar. -/
theorem toInt_later (year : Year) (count : UInt32) :
    (later year count).toInt =
      min (year.toInt + min (count.toNat : Int) (2 ^ 31 - 1)) (2 ^ 31 - 1) := by
  have hlow := Int32.le_toInt year
  have hhigh := Int32.toInt_lt year
  unfold later
  rw [toInt_addSaturated, toInt_step]
  omega

/-- To hold the count first makes no difference for a year that is not negative, nor for a count
that is not above the largest step. -/
theorem toInt_later_eq_iff (year : Year) (count : UInt32) :
    (later year count).toInt = min (year.toInt + count.toNat) (2 ^ 31 - 1) ↔
      0 ≤ year.toInt ∨ (count.toNat : Int) ≤ 2 ^ 31 - 1 := by
  have hhigh := Int32.toInt_lt year
  rw [toInt_later]
  omega

theorem le_later (year : Year) (count : UInt32) : year ≤ later year count := by
  have hhigh := Int32.toInt_lt year
  rw [Int32.le_iff_toInt_le, toInt_later]
  omega

/-- There is a next year unless the year is the last one. -/
theorem toInt_succ {year : Year} (h : year ≠ last) : (year + 1).toInt = year.toInt + 1 := by
  have hlow := Int32.le_toInt year
  have hhigh := Int32.toInt_lt year
  have hne : year.toInt ≠ 2 ^ 31 - 1 := by
    intro heq
    exact h (Int32.toInt_inj.1 (heq.trans toInt_last.symm))
  rw [Int32.toInt_add, show (1 : Int32).toInt = 1 from rfl]
  exact Int.bmod_eq_of_le (by omega) (by omega)

/-- A wait of at least one year ends after the present year, unless that is the last one. -/
theorem lt_later {year : Year} {count : UInt32} (h : 0 < count) :
    year < later year count ∨ year = last := by
  have hcount : 0 < count.toNat := UInt32.lt_iff_toNat_lt.1 h
  have hhigh := Int32.toInt_lt year
  by_cases hlast : year = last
  · exact .inr hlast
  · have hne : year.toInt ≠ 2 ^ 31 - 1 := by
      intro heq
      exact hlast (Int32.toInt_inj.1 (heq.trans toInt_last.symm))
    left
    rw [Int32.lt_iff_toInt_lt, toInt_later]
    omega

end Year

namespace Clock

/-- A clock that is not finished moves on by one year. -/
theorem toInt_tick {c : Clock} (h : c.isFinished = false) :
    c.tick.year.toInt = c.year.toInt + 1 := by
  have hlt : c.year < c.stop := by
    unfold isFinished at h
    rw [decide_eq_false_iff_not, Int32.not_le] at h
    exact h
  have hless : c.year.toInt < c.stop.toInt := Int32.lt_iff_toInt_lt.1 hlt
  have hhigh := Int32.toInt_lt c.stop
  refine Year.toInt_succ ?_
  intro hlast
  rw [hlast, Year.toInt_last] at hless
  omega

/-- A clock is not finished as long as years are left. -/
theorem isFinished_eq_false_iff {c : Clock} : c.isFinished = false ↔ 0 < c.remaining := by
  unfold isFinished remaining
  rw [decide_eq_false_iff_not, Int32.not_le, Int32.lt_iff_toInt_lt]
  omega

theorem le_tick {c : Clock} (h : c.isFinished = false) : c.year ≤ c.tick.year := by
  rw [Int32.le_iff_toInt_le, toInt_tick h]
  omega

theorem remaining_tick {c : Clock} (h : c.isFinished = false) :
    c.tick.remaining = c.remaining - 1 := by
  have htick := toInt_tick h
  have hstop : c.tick.stop = c.stop := rfl
  unfold remaining
  rw [htick, hstop]
  omega

/-- A clock starts with as many years as are asked for, as far as the largest step and the calendar
allow. -/
theorem remaining_start (first : Year) (years : UInt32) :
    ((start first years).remaining : Int) =
      min (min (years.toNat : Int) (2 ^ 31 - 1)) (2 ^ 31 - 1 - first.toInt) := by
  have hhigh := Int32.toInt_lt first
  unfold remaining start
  dsimp only
  rw [Year.toInt_later]
  omega

end Clock

end Annals
