import Annals.Config
import Annals.Entry
import Annals.Family.Founding
import Annals.Family.Year
import Annals.World.Beginning
/-!
# Simulations

A simulation goes through its years one by one. In each year the marriage market comes first, then
the dynasties in the order of their founding, then the world. All of them draw from the same dice.

* `Simulation.ofConfig`: the state before the first year.
* `Simulation.step`: one year.
* `Simulation.run`: all years that are left.
-/

namespace Annals

/-! ## Reports -/

/-- The entries of a year in progress, and the fault that keeps it from being finished. -/
structure YearBook where
  entries : List Entry
  fault : Option CourseFault
deriving DecidableEq

namespace YearBook

/-- The book before a year. -/
def blank : YearBook := { entries := [], fault := none }

/-- Adds entries at the end. -/
def append (b : YearBook) (entries : List Entry) : YearBook :=
  { b with entries := b.entries ++ entries }

/-- Takes out what the book holds and leaves it blank. -/
def drain (b : YearBook) : (List Entry × Option CourseFault) × YearBook :=
  ((b.entries, b.fault), blank)

end YearBook

/-- What is told of a finished year. -/
structure Report where
  year : Year
  entries : List Entry
deriving DecidableEq

/-! ## States -/

/-- Everything that a simulation keeps from year to year. -/
structure Simulation (σ : Type) where
  clock : Clock
  dice : σ
  world : World
  rules : Rules
  roster : Roster
  dynasties : List Dynasty
  market : Market
  settings : FamilySettings
  book : YearBook

namespace Simulation

variable {σ : Type} [Dice σ]

/-- The state before the first year: the dynasties are founded, the world is at its beginning, and
the market is empty. -/
def ofConfig (c : Config) (catalog : Catalog) (dice : σ) : Simulation σ :=
  let (dynasties, roster, dice) :=
    Dynasty.foundAll c.run.startYear c.family.ageing.initialHealth c.run.dynasties .empty dice
  { clock := .start c.run.startYear c.run.years, dice, world := .beginning c.run.startYear
    rules := { catalog, settings := c.course }, roster, dynasties, market := .empty
    settings := c.family, book := .blank }

/-! ## One year -/

/-- The year on the marriage market. -/
def passMarket (s : Simulation σ) : Simulation σ :=
  let (market, roster, dice) := s.market.update s.settings s.clock.year s.roster s.dice
  { s with market, roster, dice }

/-- The year of dynasties, one after the other, with all that they share. -/
def passHouses (settings : FamilySettings) (year : Year) :
    List Dynasty → Roster → Market → σ →
      List FamilyEvent × List Dynasty × Roster × Market × σ
  | [], roster, market, dice => ([], [], roster, market, dice)
  | dynasty :: rest, roster, market, dice =>
    let (events, h) := House.passYear settings year { dynasty, roster, market, dice }
    let (more, dynasties, roster, market, dice) :=
      passHouses settings year rest h.roster h.market h.dice
    (events ++ more, h.dynasty :: dynasties, roster, market, dice)

/-- The year of all dynasties. -/
def passDynasties (s : Simulation σ) : Simulation σ :=
  let (events, dynasties, roster, market, dice) :=
    passHouses s.settings s.clock.year s.dynasties s.roster s.market s.dice
  { s with dynasties, roster, market, dice, book := s.book.append (events.map .family) }

/-- The year of the world. What fired before a fault is not told. -/
def passWorld (s : Simulation σ) : Simulation σ :=
  if s.book.fault.isSome then s
  else
    let p := s.rules.passYear s.clock.year s.world s.dice
    let book := match p.fault with
      | none => s.book.append (p.fired.map .world)
      | some fault => { s.book with fault := some fault }
    { s with world := p.world, dice := p.dice, book }

/-- Goes through one year and moves the clock on. After a fault the clock stays, and nothing is
told of the year. -/
def step (s : Simulation σ) : Except CourseFault Report × Simulation σ :=
  let s := s.passMarket.passDynasties.passWorld
  let ((entries, fault), book) := s.book.drain
  let s := { s with book }
  match fault with
  | some fault => (.error fault, s)
  | none => (.ok { year := s.clock.year, entries }, { s with clock := s.clock.tick })

/-! ## All years -/

/-- The reports of a run, its end, and the fault that cut it short, if one did. -/
structure Outcome (σ : Type) where
  reports : List Report
  fault : Option CourseFault
  last : Simulation σ

/-- Goes through at most `n` years, as long as the clock is not finished. -/
def runFor : Nat → Simulation σ → Outcome σ
  | 0, s => { reports := [], fault := none, last := s }
  | n + 1, s =>
    if s.clock.isFinished then { reports := [], fault := none, last := s }
    else
      match s.step with
      | (.error fault, s) => { reports := [], fault := some fault, last := s }
      | (.ok report, s) =>
        let outcome := runFor n s
        { outcome with reports := report :: outcome.reports }

/-- Goes through the years that are left. -/
def run (s : Simulation σ) : Outcome σ := runFor s.clock.remaining s

end Simulation

end Annals
