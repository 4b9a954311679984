import Annals.Calendar
import Annals.Text.Digits
/-!
# Family events

What a chronicle tells of a dynasty's year. Persons are told by name.
-/

namespace Annals

/-- How an heir is related to the monarch before. -/
inductive Kinship where
  | child
  | sibling
deriving DecidableEq, Repr

/-- The kinship in texts. -/
def Kinship.label : Kinship → String
  | .child => "child"
  | .sibling => "sibling"

/-- What happened. -/
inductive FamilyDeed where
  | marriage (person partner : String) (age : Int32)
  | birth (child mother father : String)
  | death (person : String) (age : Int32)
  | succession (oldMonarch newMonarch : String) (kinship : Kinship) (isKing : Bool)
  | noSuccessor (monarch : String) (isKing : Bool)
deriving DecidableEq, Repr

/-- An event of a dynasty's year. -/
structure FamilyEvent where
  year : Year
  dynasty : String
  deed : FamilyDeed
deriving DecidableEq, Repr

/-- The title of a monarch. -/
def monarchTitle (isKing : Bool) : String := if isKing then "King" else "Queen"

namespace FamilyDeed

/-- The event in one line. -/
def describe : FamilyDeed → String
  | .marriage person partner age =>
    person ++ " marries " ++ partner ++ " at age " ++ Text.ofInt age.toInt
  | .birth child mother father => child ++ " is born to " ++ mother ++ " and " ++ father
  | .death person age => person ++ " dies at age " ++ Text.ofInt age.toInt
  | .succession oldMonarch newMonarch kinship isKing =>
    newMonarch ++ " (" ++ kinship.label ++ ") succeeds " ++ oldMonarch ++ " as " ++
      monarchTitle isKing
  | .noSuccessor monarch isKing =>
    monarchTitle isKing ++ " " ++ monarch ++ " has died without a suitable successor"

end FamilyDeed

/-- The event in one line. -/
def FamilyEvent.describe (e : FamilyEvent) : String := e.deed.describe

end Annals
