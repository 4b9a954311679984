import Annals.Calendar
import Annals.Text.Digits
/-!
# Persons

A person is known by an id. Relations between persons are lists of ids.

* `Person.isAlive`, `Person.age`: life and death.
* `Person.describe`, `Person.lifespan`: a person in texts.
-/

namespace Annals

/-- The number of a person: the place in the roster. -/
structure PersonId where
  index : UInt32
deriving DecidableEq, Repr

/-- The id where a name should stand but none is known. -/
def PersonId.describe (id : PersonId) : String := "person_" ++ Text.padded 4 id.index.toNat

/-- The two genders. -/
inductive Gender where
  | male
  | female
deriving DecidableEq, Repr

namespace Gender

/-- The other gender. -/
def opposite : Gender → Gender
  | .male => .female
  | .female => .male

/-- The gender in texts. -/
def label : Gender → String
  | .male => "male"
  | .female => "female"

/-- The sign in front of a name in family trees. -/
def sign : Gender → String
  | .male => "♂"
  | .female => "♀"

end Gender

/-- A person, alive or dead. -/
structure Person where
  id : PersonId
  name : String
  gender : Gender
  birthYear : Year
  /-- Nothing while the person lives. -/
  deathYear : Option Year
  /-- Falls from year to year; a person whose health is used up dies. -/
  health : Int32
  faction : String
  region : String
  /-- Present and former partners in the order of the marriages. -/
  partners : List PersonId
  children : List PersonId
  /-- Mother and father of a person who was born during the run. -/
  parents : Option (PersonId × PersonId)
  wasMonarch : Bool
deriving DecidableEq, Repr

namespace Person

/-- Whether the person has no year of death. -/
def isAlive (p : Person) : Bool := p.deathYear.isNone

/-- The age in a year; for the dead, the age at death. -/
def age (p : Person) (year : Year) : Int32 := p.deathYear.getD year - p.birthYear

/-- Years of birth and death. -/
def lifespan (p : Person) : String :=
  match p.deathYear with
  | some death => Text.ofInt p.birthYear.toInt ++ "–" ++ Text.ofInt death.toInt
  | none => "born " ++ Text.ofInt p.birthYear.toInt

/-- Name, gender and years of a person. -/
def describe (p : Person) : String :=
  p.name ++ " (" ++ p.gender.label ++ ", " ++ p.lifespan ++ ")"

end Person

end Annals
