import Annals.Family.Event
import Annals.Family.Roster
/-!
# Heirs

A dead monarch is followed by the oldest grown child, or else by the oldest grown sibling. Half
siblings count. Of two persons born in one year the one with the smaller id is the older.
-/

namespace Annals.Roster

/-- The youngest age at which a person can take the throne. -/
def throneAge : Int32 := 18

/-- Whether a person can take the throne in a year. -/
def isGrown (year : Year) (p : Person) : Bool := p.isAlive && throneAge ≤ p.age year

/-- Whether `a` goes before `b` in the line of heirs. -/
def goesBefore (a b : Person) : Bool :=
  a.birthYear < b.birthYear || (a.birthYear = b.birthYear && a.id.index < b.id.index)

/-- The person who goes before all others of a list. -/
def oldest? : List Person → Option Person
  | [] => none
  | p :: rest =>
    match oldest? rest with
    | some q => if goesBefore q p then some q else some p
    | none => some p

/-- The persons of a list of ids who can take the throne. -/
def grown (r : Roster) (year : Year) (ids : List PersonId) : List Person :=
  (ids.filterMap r.get?).filter (isGrown year)

/-- The children of a person's parents, the mother's first, without the person. -/
def siblingIds (r : Roster) (p : Person) (id : PersonId) : List PersonId :=
  match p.parents with
  | some (mother, father) =>
    ([mother, father].filterMap r.get?).flatMap (fun q => q.children) |>.filter (· ≠ id)
  | none => []

/-- The heir of a monarch. -/
def heir? (r : Roster) (monarch : PersonId) (year : Year) : Option (PersonId × Kinship) :=
  match r.get? monarch with
  | none => none
  | some p =>
    match oldest? (r.grown year p.children) with
    | some child => some (child.id, .child)
    | none => (oldest? (r.grown year (r.siblingIds p monarch))).map fun q => (q.id, .sibling)

end Annals.Roster
