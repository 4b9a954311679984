import Annals.Calendar
import Annals.Table
import Annals.World.Stat
/-!
# The state of the world

The world has a year, the stats of its regions and factions, and a queue of triggers that wait for
a later year.

* `World.stat?`, `World.setStat`: one stat of one owner; an owner appears with its first stat.
* `World.schedule`, `World.takeDue`: the queue.
-/

namespace Annals

/-- An event that waits for its year. -/
structure Trigger where
  /-- The event to fire. -/
  event : String
  /-- The first year in which it is tried. -/
  due : Year
  /-- The chance that it fires when it is tried. -/
  chance : Float
  /-- The category under which the chain of events began. -/
  category : String
  /-- The event whose follow-up this is. -/
  scheduledBy : String
  /-- The year in which it was queued. -/
  scheduledIn : Year
deriving DecidableEq

/-- Stats by name. -/
abbrev Stats := Table Stat

/-- Everything that world events read and change. -/
structure World where
  year : Year
  regions : Table Stats
  factions : Table Stats
  /-- Waiting triggers, oldest first. -/
  queue : List Trigger
deriving DecidableEq

namespace World

/-- A world without regions, factions and triggers. -/
def blank (year : Year) : World :=
  { year, regions := .empty, factions := .empty, queue := [] }

/-! ## Stats -/

/-- All owners of one kind with their stats. -/
def owners (w : World) : Side → Table Stats
  | .region => w.regions
  | .faction => w.factions

/-- The world with other owners of one kind. -/
def withOwners (w : World) (side : Side) (owners : Table Stats) : World :=
  match side with
  | .region => { w with regions := owners }
  | .faction => { w with factions := owners }

/-- The stats of an owner. -/
def owner? (w : World) (side : Side) (name : String) : Option Stats := (w.owners side).get? name

/-- A stat of an owner; nothing when the owner or the stat is absent. -/
def stat? (w : World) (side : Side) (owner stat : String) : Option Stat :=
  (w.owner? side owner).bind fun stats => stats.get? stat

/-- A stat as a number; an absent stat and a text count as zero. -/
def number (w : World) (side : Side) (owner stat : String) : Int64 :=
  ((w.stat? side owner stat).bind Stat.number?).getD 0

/-- The world with a stat set; the owner is created when it is new. -/
def setStat (w : World) (side : Side) (owner stat : String) (value : Stat) : World :=
  let stats := ((w.owner? side owner).getD .empty).insert stat value
  w.withOwners side ((w.owners side).insert owner stats)

@[simp] theorem owners_withOwners_self (w : World) (side : Side) (t : Table Stats) :
    (w.withOwners side t).owners side = t := by cases side <;> rfl

theorem owners_withOwners_ne {side other : Side} (h : other ≠ side) (w : World)
    (t : Table Stats) : (w.withOwners side t).owners other = w.owners other := by
  cases side <;> cases other
  · exact absurd rfl h
  · rfl
  · rfl
  · exact absurd rfl h

@[simp] theorem year_withOwners (w : World) (side : Side) (t : Table Stats) :
    (w.withOwners side t).year = w.year := by cases side <;> rfl

@[simp] theorem queue_withOwners (w : World) (side : Side) (t : Table Stats) :
    (w.withOwners side t).queue = w.queue := by cases side <;> rfl

@[simp] theorem stat?_setStat_self (w : World) (side : Side) (owner stat : String) (value : Stat) :
    (w.setStat side owner stat value).stat? side owner stat = some value := by
  simp [stat?, setStat, owner?]

/-- Setting a stat leaves every other stat alone. -/
theorem stat?_setStat_ne {side side' : Side} {owner owner' stat stat' : String}
    (h : (side', owner', stat') ≠ (side, owner, stat)) (w : World) (value : Stat) :
    (w.setStat side owner stat value).stat? side' owner' stat' = w.stat? side' owner' stat' := by
  by_cases hside : side' = side
  · subst hside
    by_cases howner : owner' = owner
    · subst howner
      have hstat : stat' ≠ stat := fun hs => h (by rw [hs])
      cases hw : w.owner? side' owner' with
      | none =>
        have hw' := hw
        simp only [owner?] at hw'
        simp [stat?, setStat, owner?, hw', Table.get?_insert_ne hstat]
      | some stats =>
        have hw' := hw
        simp only [owner?] at hw'
        simp [stat?, setStat, owner?, hw', Table.get?_insert_ne hstat]
    · simp [stat?, setStat, owner?, Table.get?_insert_ne howner]
  · simp [stat?, setStat, owner?, owners_withOwners_ne hside]

/-! ## The queue -/

/-- Queues a trigger. One that is set for a past year is tried in the world's year. -/
def schedule (w : World) (t : Trigger) : World :=
  { w with queue := w.queue ++ [if t.due < w.year then { t with due := w.year } else t] }

/-- Takes the triggers that are due by a year out of the queue, in queue order. -/
def takeDue (w : World) (year : Year) : List Trigger × World :=
  (w.queue.filter fun t => t.due ≤ year,
    { w with queue := w.queue.filter fun t => !(t.due ≤ year) })

end World

end Annals
