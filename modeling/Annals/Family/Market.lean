import Annals.Family.Names
import Annals.Family.Roster
import Annals.Family.Settings
/-!
# The marriage market

Unmarried outsiders whom members of dynasties can marry. A candidate stays for a number of years.

* `Market.update`: the yearly change of the market.
* `Market.suitable`, `Market.findPartner`: the candidates for a seeker, and one of them by chance.
-/

namespace Annals

/-- An outsider on the market. -/
structure Candidate where
  person : PersonId
  /-- The years left before the candidate leaves. -/
  remaining : UInt32
deriving DecidableEq, Repr

/-- The candidates in the order in which they came. -/
structure Market where
  candidates : List Candidate
deriving DecidableEq, Repr

namespace Market

/-- The market without candidates. -/
def empty : Market := { candidates := [] }

/-- Adds a candidate. -/
def add (m : Market) (person : PersonId) (years : UInt32) : Market :=
  { candidates := m.candidates ++ [{ person, remaining := years }] }

/-- Takes a person off the market. -/
def remove (m : Market) (person : PersonId) : Market :=
  { candidates := m.candidates.filter fun c => c.person ≠ person }

/-- Whether a candidate stays for another year: not out of years, alive and without partners. -/
def stays (roster : Roster) (c : Candidate) : Bool :=
  0 < c.remaining && (roster.get? c.person).any fun p => p.isAlive && p.partners.isEmpty

/-- The candidates who stay, each with a year less. -/
def expire (m : Market) (roster : Roster) : Market :=
  { candidates := (m.candidates.filter (stays roster)).map fun c =>
      { c with remaining := c.remaining - 1 } }

variable {σ : Type} [Dice σ]

/-- A new candidate, drawn at random. -/
def newcomer (settings : FamilySettings) (year : Year) (dice : σ) : Roster.Arrival × σ :=
  let (gender, dice) := Dice.gender dice
  let (name, dice) := Dice.givenName gender dice
  let (age, dice) :=
    Dice.between settings.marriage.candidateMinAge settings.marriage.candidateMaxAge dice
  let (faction, dice) := Dice.faction dice
  let (region, dice) := Dice.region dice
  ({ name, gender, birthYear := year - age, faction, region
     health := settings.ageing.initialHealth }, dice)

/-- A year on the market: stale candidates leave, and by chance a new one comes. -/
def update (m : Market) (settings : FamilySettings) (year : Year) (roster : Roster) (dice : σ) :
    Market × Roster × σ :=
  let m := m.expire roster
  let (roll, dice) := Dice.roll dice
  if roll.reaches settings.marriage.newCandidateChance then (m, roster, dice)
  else
    let (arrival, dice) := newcomer settings year dice
    let (id, roster) := roster.spawn arrival
    (m.add id settings.marriage.candidateYears, roster, dice)

/-- Whether a person suits a seeker: someone else, alive, never married, of the other gender, and
near enough in age. -/
def suits (settings : MarriageSettings) (seeker : Person) (year : Year) (p : Person) : Bool :=
  p.id ≠ seeker.id && p.isAlive && p.gender ≠ seeker.gender && p.partners.isEmpty &&
    (p.age year - seeker.age year).abs ≤ settings.maxAgeDifference

/-- The candidates who suit a seeker. -/
def suitable (m : Market) (settings : MarriageSettings) (seeker : Person) (year : Year)
    (roster : Roster) : List PersonId :=
  ((m.candidates.filterMap fun c => roster.get? c.person).filter
    (suits settings seeker year)).map (·.id)

/-- One of the suitable candidates. Without any there is no draw. -/
def findPartner (m : Market) (settings : MarriageSettings) (seeker : Person) (year : Year)
    (roster : Roster) (dice : σ) : Option PersonId × σ :=
  match m.suitable settings seeker year roster with
  | [] => (none, dice)
  | first :: rest =>
    let (place, dice) := Dice.long rest.length dice
    (some ((first :: rest).get place), dice)

end Market

end Annals
