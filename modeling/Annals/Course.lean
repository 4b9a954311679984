import Annals.Catalog
import Annals.Dice
/-!
# The course of a year

One year of world events: the triggers that are due are tried in queue order, then each category
may begin a chain of its own, in catalog order. An event that fires changes the world at once, so
that everything after it in the year sees the change.

* `Passage`: what a stretch of the year leaves behind.
* `Rules.fire`: a chain of events from its root.
* `Rules.passYear`: a whole year.
-/

namespace Annals

/-! ## Passages -/

/-- Why a year cannot be gone through. -/
inductive CourseFault where
  /-- A follow-up or trigger names an event that is not in the catalog. -/
  | unknownEvent (id referencedBy : String)
  /-- The year lies before the year of the world. -/
  | yearRegression (current requested : Year)
deriving DecidableEq, Repr

/-- The wording of a fault. -/
def CourseFault.message : CourseFault → String
  | .unknownEvent id referencedBy =>
    "event '" ++ id ++ "' referenced by '" ++ referencedBy ++
      "' is missing from the loaded catalog"
  | .yearRegression current requested =>
    "cannot process year " ++ Text.ofInt requested.toInt ++ ": world is already at year " ++
      Text.ofInt current.toInt

/-- The state after a stretch of the year, with the events that fired in it. A fault ends the year;
what was changed before it stays changed. -/
structure Passage (σ : Type) where
  world : World
  dice : σ
  /-- The events that fired, in the order in which they fired. -/
  fired : List Occurrence
  fault : Option CourseFault

namespace Passage

variable {σ α : Type}

/-- A stretch in which nothing fires. -/
def quiet (world : World) (dice : σ) : Passage σ := { world, dice, fired := [], fault := none }

/-- A stretch that ends in a fault. -/
def failed (fault : CourseFault) (world : World) (dice : σ) : Passage σ :=
  { world, dice, fired := [], fault := some fault }

/-- One stretch after another; after a fault nothing more happens. -/
def andThen (p : Passage σ) (next : World → σ → Passage σ) : Passage σ :=
  match p.fault with
  | some _ => p
  | none =>
    let q := next p.world p.dice
    { q with fired := p.fired ++ q.fired }

/-- One stretch for each item of a list, in order. -/
def each (step : α → World → σ → Passage σ) : List α → World → σ → Passage σ
  | [], world, dice => quiet world dice
  | item :: rest, world, dice => (step item world dice).andThen (each step rest)

end Passage

/-! ## Chains of events -/

/-- Limits on the events of a year. -/
structure CourseSettings where
  /-- The longest chain of follow-ups in the same year. -/
  maxDepth : UInt32
  /-- The chance that a category begins a chain at all. -/
  categoryChance : Float
deriving DecidableEq

/-- The catalog and the limits under which the years are gone through. -/
structure Rules where
  catalog : Catalog
  settings : CourseSettings

namespace Rules

variable {σ : Type} [Dice σ]

/-- Continues with an event of the catalog, or fails when it is not there. -/
def withEvent (rules : Rules) (id referencedBy : String)
    (next : Definition → World → σ → Passage σ) (world : World) (dice : σ) : Passage σ :=
  match rules.catalog.find? id with
  | some definition => next definition world dice
  | none => .failed (.unknownEvent id referencedBy) world dice

/-- The trigger that a delayed follow-up leaves in the queue. -/
def triggerOf (parent : Definition) (category : String) (f : FollowUp) (year : Year) : Trigger :=
  { event := f.event, due := year.later f.delay, chance := f.chance, category
    scheduledBy := parent.id, scheduledIn := year }

/-- Deals with one follow-up of a fired event. One with a delay is queued without a roll. Any other
rolls and fires, without a look at its conditions; it is dropped when the chain may not grow, that
is, when there is no `fire?`. -/
def follow (rules : Rules) (fire? : Option (Definition → Origin → World → σ → Passage σ))
    (parent : Definition) (category : String) (f : FollowUp) (world : World) (dice : σ) :
    Passage σ :=
  if 0 < f.delay then
    .quiet (world.schedule (triggerOf parent category f world.year)) dice
  else
    match fire? with
    | none => .quiet world dice
    | some fire =>
      let (roll, dice) := Dice.roll dice
      if roll.reaches f.chance then .quiet world dice
      else
        rules.withEvent f.event parent.id (fun d => fire d (.followUp parent.id)) world dice

/-- Fires an event: its effects are applied, it is reported, and its follow-ups are dealt with in
order. -/
def strike (rules : Rules) (fire? : Option (Definition → Origin → World → σ → Passage σ))
    (category : String) (definition : Definition) (origin : Origin) (world : World) (dice : σ) :
    Passage σ :=
  let world := (Effect.applyAll world definition.effects).1
  let occurrence := Occurrence.ofDefinition definition category world.year origin
  Passage.andThen { world, dice, fired := [occurrence], fault := none }
    (Passage.each (follow rules fire? definition category) definition.followUps)

/-- Fires an event and the chain behind it, which may be `depth` steps deep. All events of a chain
are reported under the category of its root. -/
def fire (rules : Rules) (category : String) :
    Nat → Definition → Origin → World → σ → Passage σ
  | 0 => strike rules none category
  | depth + 1 => strike rules (some (fire rules category depth)) category

/-- Fires an event as the root of a chain. -/
def fireRoot (rules : Rules) (category : String) (definition : Definition) (origin : Origin) :
    World → σ → Passage σ :=
  fire rules category rules.settings.maxDepth.toNat definition origin

/-! ## Years -/

/-- Tries a trigger that is due: one roll, and the chain of its event if it fires. -/
def tryTrigger (rules : Rules) (t : Trigger) (world : World) (dice : σ) : Passage σ :=
  let (roll, dice) := Dice.roll dice
  if roll.reaches t.chance then .quiet world dice
  else
    rules.withEvent t.event t.scheduledBy
      (fun d => rules.fireRoot t.category d (.delayed t.scheduledBy t.scheduledIn)) world dice

/-- The events of a category that may begin a chain now. -/
def eligible (category : Category) (world : World) : List Definition :=
  category.candidates.filter fun d => Condition.allHold world d.conditions

/-- Whether a category that could begin a chain stays quiet. A certain chance needs no roll. -/
def staysQuiet (rules : Rules) (dice : σ) : Bool × σ :=
  if rules.settings.categoryChance < 1.0 then
    let (roll, dice) := Dice.roll dice
    (roll.reaches rules.settings.categoryChance, dice)
  else (false, dice)

/-- Lets a category begin a chain: one of its eligible events is picked. -/
def scan (rules : Rules) (category : Category) (world : World) (dice : σ) : Passage σ :=
  match eligible category world with
  | [] => .quiet world dice
  | first :: rest =>
    let (quiet, dice) := rules.staysQuiet dice
    if quiet then .quiet world dice
    else
      let (place, dice) := Dice.long rest.length dice
      rules.fireRoot category.name ((first :: rest).get place) .scan world dice

/-- Goes through a year. The world's year never goes back. -/
def passYear (rules : Rules) (year : Year) (world : World) (dice : σ) : Passage σ :=
  if year < world.year then .failed (.yearRegression world.year year) world dice
  else
    let (due, world) := { world with year }.takeDue year
    (Passage.each rules.tryTrigger due world dice).andThen
      (Passage.each rules.scan rules.catalog.categories)

end Rules

end Annals
