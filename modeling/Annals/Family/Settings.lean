import Annals.Calendar
/-!
# Settings of family life
-/

namespace Annals

/-- Ageing and health. -/
structure AgeingSettings where
  maxBaseAge : Int32 := 80
  /-- The most that chance adds to `maxBaseAge` in a year. -/
  maxAgeBonus : Int32 := 40
  initialHealth : Int32 := 100
  healthLossMin : Int32 := 0
  healthLossMax : Int32 := 5
deriving DecidableEq, Repr

/-- Marriages and the marriage market. -/
structure MarriageSettings where
  minAge : Int32 := 18
  /-- The chance to look for a partner at `minAge`. -/
  baseChance : Float := 0.1
  /-- What each year above `minAge` adds to the chance. -/
  chancePerYear : Float := 0.05
  maxChance : Float := 0.9
  maxAgeDifference : Int32 := 10
  /-- The chance that a candidate enters the market in a year. -/
  newCandidateChance : Float := 0.1
  /-- The years that a candidate stays on the market. -/
  candidateYears : UInt32 := 5
  candidateMinAge : Int32 := 16
  candidateMaxAge : Int32 := 30
deriving DecidableEq

/-- Births. A mother is older than `minAge` and younger than `maxAge`. -/
structure ChildbirthSettings where
  minAge : Int32 := 16
  maxAge : Int32 := 45
  chance : Float := 0.3
deriving DecidableEq

/-- All settings of family life. -/
structure FamilySettings where
  ageing : AgeingSettings := {}
  marriage : MarriageSettings := {}
  childbirth : ChildbirthSettings := {}
deriving DecidableEq

namespace MarriageSettings

/-- The smaller of two doubles; a number when only one of them is one. -/
def lesser (a b : Float) : Float :=
  if a.isNaN then b else if b.isNaN then a else if b < a then b else a

/-- The chance that a person of an age looks for a partner in a year. -/
def chanceAt (m : MarriageSettings) (age : Int32) : Float :=
  let years := max (age - m.minAge) 0
  lesser (m.baseChance + Float.ofInt years.toInt * m.chancePerYear) m.maxChance

end MarriageSettings

end Annals
