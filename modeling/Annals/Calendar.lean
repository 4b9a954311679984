/-!
# Years and the clock of a run

* `Year.later`: a year some years on, held at the last year of the calendar.
* `Clock`: the year to be simulated next and the year the run stops at.
-/

namespace Annals

/-- A year of the calendar. Differences of years and ages use the same 32-bit words. -/
abbrev Year := Int32

namespace Year

/-- The last year of the calendar. -/
def last : Year := Int32.maxValue

/-- The sum of two words, held at the ends of the calendar. -/
def addSaturated (a b : Year) : Year :=
  Int32.ofInt (max Int32.minValue.toInt (min Int32.maxValue.toInt (a.toInt + b.toInt)))

/-- A count of years as a step of the calendar, held at the largest step. -/
def step (count : UInt32) : Year := Int32.ofNat (min count.toNat last.toInt.toNat)

/-- The year `count` years after `year`. -/
def later (year : Year) (count : UInt32) : Year := addSaturated year (step count)

end Year

/-- Where a run stands: the next year to simulate and the first year not to simulate. -/
structure Clock where
  year : Year
  stop : Year
deriving DecidableEq, Repr

namespace Clock

/-- A clock at the first of `years` years. -/
def start (first : Year) (years : UInt32) : Clock :=
  { year := first, stop := first.later years }

/-- Whether no year is left. -/
def isFinished (c : Clock) : Bool := c.stop ≤ c.year

/-- The clock one year on. -/
def tick (c : Clock) : Clock := { c with year := c.year + 1 }

/-- The number of years left. -/
def remaining (c : Clock) : Nat := (c.stop.toInt - c.year.toInt).toNat

end Clock

end Annals
