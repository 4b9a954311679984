import Annals.World.Condition
import Annals.World.Effect
/-!
# Events

* `Definition`: what can happen: its conditions, its effects and its follow-ups.
* `Occurrence`: what did happen: a definition that fired in a year, under a category, and why.
-/

namespace Annals

/-! ## Definitions -/

/-- An event that may follow another one. -/
structure FollowUp where
  event : String
  /-- Years to wait; zero for the same year. -/
  delay : UInt32
  /-- The chance that it fires when it is tried. -/
  chance : Float
deriving DecidableEq

/-- Details that are shown with an event and mean nothing else. -/
structure Details where
  severity : Option String := none
  region : Option String := none
  impact : Option String := none
  faction : Option String := none
deriving DecidableEq, Repr

namespace Details

/-- The names of the details in the order in which they are shown. -/
def labels : List String := ["severity", "region", "impact", "faction"]

/-- The details that are there, each with its name. -/
def present (d : Details) : List (String × String) :=
  [("severity", d.severity), ("region", d.region), ("impact", d.impact),
    ("faction", d.faction)].filterMap fun e => e.2.map fun value => (e.1, value)

/-- Whether there are no details. -/
def isEmpty (d : Details) : Bool := d.present.isEmpty

end Details

/-- An event of a catalog. -/
structure Definition where
  id : String
  name : String
  description : String
  category : String
  conditions : List Condition
  effects : List Effect
  followUps : List FollowUp
  /-- The event fires only as a follow-up of another one. -/
  followUpOnly : Bool
  details : Details
deriving DecidableEq

/-! ## Occurrences -/

/-- Why an event fired. -/
inductive Origin where
  /-- It was picked in its category. -/
  | scan
  /-- It followed another event in the same year. -/
  | followUp (parent : String)
  /-- It was queued by another event in an earlier year. -/
  | delayed (parent : String) (scheduledIn : Year)
deriving DecidableEq, Repr

namespace Origin

/-- Whether the event was picked in its category. -/
def isScan : Origin → Bool
  | .scan => true
  | _ => false

/-- The event that this one goes back to. -/
def parent? : Origin → Option String
  | .scan => none
  | .followUp parent => some parent
  | .delayed parent _ => some parent

end Origin

/-- An event that fired. -/
structure Occurrence where
  year : Year
  id : String
  name : String
  description : String
  /-- The category of the event that began the chain. -/
  category : String
  effects : List Effect
  origin : Origin
  details : Details
deriving DecidableEq

namespace Occurrence

/-- The occurrence of a defined event. -/
def ofDefinition (d : Definition) (category : String) (year : Year) (origin : Origin) :
    Occurrence :=
  { year, id := d.id, name := d.name, description := d.description, category
    effects := d.effects, origin, details := d.details }

/-- One line with name, category and parent; a second line for the details. -/
def describe (o : Occurrence) : String :=
  let parent := match o.origin.parent? with
    | some parent => " <- " ++ parent
    | none => ""
  let details :=
    if o.details.isEmpty then ""
    else "\n    Details: " ++
      String.intercalate ", " (o.details.present.map fun e => e.1 ++ ": " ++ e.2)
  o.name ++ " (" ++ o.category ++ ")" ++ parent ++ details

end Occurrence

end Annals
