import Annals.Family.Person
/-!
# The roster

All persons who ever lived, in the order in which they appeared. An id is a place in the roster.

* `Roster.get?`, `Roster.update`: one person.
* `Roster.spawn`: a new person.
* `Roster.marry`, `Roster.addChild`, `Roster.kill`: what happens to persons.
-/

namespace Annals

/-- Everyone, the living and the dead. -/
structure Roster where
  persons : Array Person
deriving DecidableEq

namespace Roster

/-- The roster without persons. -/
def empty : Roster := { persons := #[] }

/-- The number of persons. -/
def size (r : Roster) : Nat := r.persons.size

/-- The persons in the order in which they appeared. -/
def toList (r : Roster) : List Person := r.persons.toList

/-- The person with an id. -/
def get? (r : Roster) (id : PersonId) : Option Person := r.persons[id.index.toNat]?

/-- The roster with one person changed; an unknown id changes nobody. -/
def update (r : Roster) (id : PersonId) (f : Person → Person) : Roster :=
  { persons := r.persons.modify id.index.toNat f }

/-- The living in the order of the roster. -/
def living (r : Roster) : List Person := r.toList.filter (·.isAlive)

/-- Whether an id belongs to a living person. -/
def isAlive (r : Roster) (id : PersonId) : Bool := (r.get? id).any (·.isAlive)

/-- The name for an id; an unknown id stands for itself. -/
def nameOf (r : Roster) (id : PersonId) : String :=
  match r.get? id with
  | some p => p.name
  | none => id.describe

/-- The id of the next person. -/
def nextId (r : Roster) : PersonId := { index := UInt32.ofNat r.size }

/-- What is known of a person who appears. -/
structure Arrival where
  name : String
  gender : Gender
  birthYear : Year
  faction : String
  region : String
  health : Int32

/-- A living person without relations. -/
def Arrival.person (a : Arrival) (id : PersonId) : Person :=
  { id, name := a.name, gender := a.gender, birthYear := a.birthYear, deathYear := none
    health := a.health, faction := a.faction, region := a.region, partners := [], children := []
    parents := none, wasMonarch := false }

/-- Adds a person at the end of the roster. -/
def spawn (r : Roster) (a : Arrival) : PersonId × Roster :=
  (r.nextId, { persons := r.persons.push (a.person r.nextId) })

/-- Adds a partner who is not yet listed. -/
def addPartner (partner : PersonId) (p : Person) : Person :=
  if p.partners.contains partner then p else { p with partners := p.partners ++ [partner] }

/-- Notes a marriage on both sides. -/
def marry (r : Roster) (a b : PersonId) : Roster :=
  (r.update a (addPartner b)).update b (addPartner a)

/-- The latest partner who is alive. -/
def livingPartner? (r : Roster) (id : PersonId) : Option PersonId :=
  (r.get? id).bind fun p => p.partners.reverse.find? r.isAlive

/-- Notes a child with both parents, and the parents with the child. -/
def addChild (r : Roster) (mother father child : PersonId) : Roster :=
  let addTo (p : Person) : Person := { p with children := p.children ++ [child] }
  ((r.update mother addTo).update father addTo).update child fun p =>
    { p with parents := some (mother, father) }

/-- Notes a death. The dead do not die again. -/
def kill (r : Roster) (id : PersonId) (year : Year) : Roster :=
  r.update id fun p => { p with deathYear := some (p.deathYear.getD year) }

end Roster

end Annals
