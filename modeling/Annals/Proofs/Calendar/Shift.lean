import Annals.Proofs.Calendar
/-!
# Calendars with another origin

A calendar that begins some years earlier counts every year by that many years more. Differences of
years do not see this. Sums and comparisons do not see it either, as long as no year falls off an
end of the calendar.

* `Year.shift`: a year as another calendar counts it.
* `Year.Moves`: the year is a year of the other calendar, too.
* `Year.Apart`, `Year.Reaches`: an age and a wait that stay within the calendar.
* `Year.shift_lt_shift`, `Year.shift_later`: comparisons and waits in the other calendar.
-/

namespace Annals.Year

/-- A year in a calendar that counts it by `k` years more. -/
def shift (k : Int) (y : Year) : Year := y + Int32.ofInt k

/-- The other calendar has the year: nothing is lost by counting it there. -/
def Moves (k : Int) (y : Year) : Prop := (y.shift k).toInt = y.toInt + k

/-- The years between a year of birth and a year are an age. -/
def Apart (y birth : Year) : Prop := (y - birth).toInt = y.toInt - birth.toInt

/-- A wait that begins in a year ends within the calendar. -/
def Reaches (y : Year) (wait : UInt32) : Prop :=
  (y.later wait).toInt = y.toInt + (step wait).toInt

instance (y birth : Year) : Decidable (y.Apart birth) := inferInstanceAs (Decidable (_ = _))

instance (y : Year) (wait : UInt32) : Decidable (y.Reaches wait) :=
  inferInstanceAs (Decidable (_ = _))

variable {k : Int} {y z : Year}

/-! ## Differences and steps -/

theorem shift_sub (k : Int) (y age : Year) : (y - age).shift k = y.shift k - age := by
  unfold shift
  grind

theorem shift_succ (k : Int) (y : Year) : (y + 1).shift k = y.shift k + 1 := by
  unfold shift
  grind

/-- The years between two years do not depend on the calendar. -/
@[simp] theorem shift_sub_shift (k : Int) (y z : Year) : y.shift k - z.shift k = y - z := by
  unfold shift
  grind

theorem shift_inj : y.shift k = z.shift k ↔ y = z := Int32.add_left_inj _

/-- A year is shifted to a year that is `k` years away only when that is a year. -/
theorem eq_shift (h : z.toInt = y.toInt + k) : z = y.shift k := by
  have hlow := Int32.le_toInt z
  have hhigh := Int32.toInt_lt z
  have hsize : Int32.size = 4294967296 := rfl
  unfold shift
  rw [← Int32.toInt_inj, Int32.toInt_add, Int32.toInt_ofInt, Int.add_bmod_bmod, ← h]
  exact (Int.bmod_eq_of_le (by omega) (by omega)).symm

theorem moves_of_eq (h : z.toInt = y.toInt + k) : y.Moves k := by
  unfold Moves
  rw [← eq_shift h, h]

/-- The next year moves when neither calendar ends. -/
theorem Moves.succ (h : y.Moves k) (hlast : y ≠ last) (hlast' : y.shift k ≠ last) :
    (y + 1).Moves k := by
  refine moves_of_eq (z := y.shift k + 1) ?_
  rw [toInt_succ hlast, toInt_succ hlast', h]
  omega

/-! ## Comparisons -/

theorem shift_lt_shift (hy : y.Moves k) (hz : z.Moves k) : y.shift k < z.shift k ↔ y < z := by
  rw [Int32.lt_iff_toInt_lt, Int32.lt_iff_toInt_lt, hy, hz]
  omega

theorem shift_le_shift (hy : y.Moves k) (hz : z.Moves k) : y.shift k ≤ z.shift k ↔ y ≤ z := by
  rw [Int32.le_iff_toInt_le, Int32.le_iff_toInt_le, hy, hz]
  omega

/-! ## Ages and waits -/

/-- A year of birth that lies an age before a year moves along with that year. -/
theorem Moves.of_apart (h : y.Moves k) (hapart : y.Apart z)
    (hapart' : (y.shift k).Apart (z.shift k)) : z.Moves k := by
  unfold Apart at hapart hapart'
  rw [shift_sub_shift, hapart, h] at hapart'
  unfold Moves
  omega

theorem Moves.later (h : y.Moves k) {wait : UInt32} (hreach : y.Reaches wait)
    (hreach' : (y.shift k).Reaches wait) : (y.later wait).Moves k := by
  refine moves_of_eq (z := (y.shift k).later wait) ?_
  rw [hreach, hreach', h]
  omega

/-- A wait that ends within both calendars ends in the same year. -/
theorem shift_later (h : y.Moves k) {wait : UInt32} (hreach : y.Reaches wait)
    (hreach' : (y.shift k).Reaches wait) : (y.later wait).shift k = (y.shift k).later wait := by
  refine (eq_shift ?_).symm
  rw [hreach, hreach', h]
  omega

end Annals.Year
