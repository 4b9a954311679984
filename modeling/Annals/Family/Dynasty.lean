import Annals.Family.Person
/-!
# Dynasties

A dynasty has founders, a monarch as long as its line lasts, and a family of living members in the
order in which they joined.
-/

namespace Annals

/-- A ruling family. -/
structure Dynasty where
  name : String
  founder : PersonId
  foundingQueen : PersonId
  /-- Nothing once the line has ended. -/
  monarch : Option PersonId
  /-- The members who are gone through each year. -/
  family : List PersonId
deriving DecidableEq, Repr

namespace Dynasty

/-- The dynasty of a king and a queen. -/
def ofCouple (name : String) (king queen : PersonId) : Dynasty :=
  { name, founder := king, foundingQueen := queen, monarch := some king, family := [king, queen] }

/-- Whether an id is in the family. -/
def isMember (d : Dynasty) (id : PersonId) : Bool := d.family.contains id

/-- Adds a member at the end; a member does not join twice. -/
def join (d : Dynasty) (id : PersonId) : Dynasty :=
  if d.isMember id then d else { d with family := d.family ++ [id] }

/-- Removes a member. -/
def leave (d : Dynasty) (id : PersonId) : Dynasty :=
  { d with family := d.family.filter (· ≠ id) }

end Dynasty

end Annals
