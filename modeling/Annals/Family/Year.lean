import Annals.Family.Dynasty
import Annals.Family.Heir
import Annals.Family.Market
/-!
# A dynasty's year

The members present at the beginning of the year are gone through in the order in which they
joined. Each one ages and may die; who lives may marry; a woman who did not marry may give birth.
When the monarch dies the heir follows at once.

* `House`: a dynasty together with everything its year works on.
* `House.passMember`: one member.
* `House.passYear`: the whole year.
-/

namespace Annals

/-- A dynasty, the roster and the market that all dynasties share, and the dice. -/
structure House (σ : Type) where
  dynasty : Dynasty
  roster : Roster
  market : Market
  dice : σ

namespace House

variable {σ : Type} [Dice σ]

/-- An event of the dynasty. -/
def event (h : House σ) (year : Year) (deed : FamilyDeed) : FamilyEvent :=
  { year, dynasty := h.dynasty.name, deed }

/-! ## Ageing -/

/-- A year's loss of health, and the age at death if the person dies of it or of age. -/
def age (s : AgeingSettings) (year : Year) (id : PersonId) (h : House σ) :
    Option Int32 × House σ :=
  let (loss, dice) := Dice.between s.healthLossMin s.healthLossMax h.dice
  let roster := h.roster.update id fun p => { p with health := p.health - loss }
  match roster.get? id with
  | none => (none, { h with roster, dice })
  | some p =>
    let (bonus, dice) := Dice.between 0 s.maxAgeBonus dice
    let age := p.age year
    let dies := p.health ≤ 0 || s.maxBaseAge + bonus < age
    (if dies then some age else none, { h with roster, dice })

/-- Hands the crown of a dead monarch to the heir, if there is one. -/
def passCrown (year : Year) (old : PersonId) (h : House σ) : FamilyEvent × House σ :=
  match h.roster.heir? old year with
  | some (heir, kinship) =>
    let roster := h.roster.update heir fun p => { p with wasMonarch := true }
    let isKing := (roster.get? heir).any (·.gender = .male)
    (h.event year (.succession (roster.nameOf old) (roster.nameOf heir) kinship isKing),
      { h with dynasty := { h.dynasty with monarch := some heir }, roster })
  | none =>
    let isKing := (h.roster.get? old).any (·.gender = .male)
    (h.event year (.noSuccessor (h.roster.nameOf old) isKing),
      { h with dynasty := { h.dynasty with monarch := none } })

/-- Buries a member; a monarch's crown passes on. -/
def bury (year : Year) (id : PersonId) (age : Int32) (h : House σ) :
    List FamilyEvent × House σ :=
  let h := { h with roster := h.roster.kill id year, dynasty := h.dynasty.leave id }
  let death := h.event year (.death (h.roster.nameOf id) age)
  if h.dynasty.monarch = some id then
    let (succession, h) := h.passCrown year id
    ([death, succession], h)
  else ([death], h)

/-! ## Marriage and birth -/

/-- A grown member without a living partner may look for one and marry. -/
def tryMarry (s : MarriageSettings) (year : Year) (id : PersonId) (h : House σ) :
    Option FamilyEvent × House σ :=
  match h.roster.get? id with
  | none => (none, h)
  | some p =>
    let age := p.age year
    if age < s.minAge || (h.roster.livingPartner? id).isSome then (none, h)
    else
      let (roll, dice) := Dice.roll h.dice
      if roll.reaches (s.chanceAt age) then (none, { h with dice })
      else
        match h.market.findPartner s p year h.roster dice with
        | (none, dice) => (none, { h with dice })
        | (some partner, dice) =>
          let roster := h.roster.marry id partner
          (some (h.event year (.marriage (roster.nameOf id) (roster.nameOf partner) age)),
            { dynasty := h.dynasty.join partner, roster, market := h.market.remove partner, dice })

/-- A child of a mother and a father: it has the mother's home. -/
def newborn (s : FamilySettings) (year : Year) (mother : Person) (dice : σ) :
    Roster.Arrival × σ :=
  let (gender, dice) := Dice.gender dice
  let (name, dice) := Dice.givenName gender dice
  ({ name, gender, birthYear := year, faction := mother.faction, region := mother.region
     health := s.ageing.initialHealth }, dice)

/-- Whether a woman's age lies within the years of childbirth. -/
def isFertile (s : ChildbirthSettings) (year : Year) (p : Person) : Bool :=
  p.gender = .female && s.minAge < p.age year && p.age year < s.maxAge

/-- A woman with a living partner may give birth. -/
def tryBirth (s : FamilySettings) (year : Year) (mother : PersonId) (h : House σ) :
    Option FamilyEvent × House σ :=
  match h.roster.get? mother with
  | none => (none, h)
  | some p =>
    if !isFertile s.childbirth year p then (none, h)
    else
      match h.roster.livingPartner? mother with
      | none => (none, h)
      | some father =>
        let (roll, dice) := Dice.roll h.dice
        if roll.reaches s.childbirth.chance then (none, { h with dice })
        else
          let (arrival, dice) := newborn s year p dice
          let (child, roster) := h.roster.spawn arrival
          let roster := roster.addChild mother father child
          (some (h.event year (.birth (roster.nameOf child) (roster.nameOf mother)
            (roster.nameOf father))),
            { h with dynasty := h.dynasty.join child, roster, dice })

/-! ## The year -/

/-- One member's year. A member who is dead already only leaves. -/
def passMember (s : FamilySettings) (year : Year) (id : PersonId) (h : House σ) :
    List FamilyEvent × House σ :=
  if !h.roster.isAlive id then ([], { h with dynasty := h.dynasty.leave id })
  else
    match age s.ageing year id h with
    | (some age, h) => h.bury year id age
    | (none, h) =>
      match tryMarry s.marriage year id h with
      | (some marriage, h) => ([marriage], h)
      | (none, h) =>
        let (birth, h) := tryBirth s year id h
        (birth.toList, h)

/-- The members of a list one after the other. -/
def passMembers (s : FamilySettings) (year : Year) :
    List PersonId → House σ → List FamilyEvent × House σ
  | [], h => ([], h)
  | id :: rest, h =>
    let (events, h) := passMember s year id h
    let (more, h) := passMembers s year rest h
    (events ++ more, h)

/-- The year of the members present at its beginning. -/
def passYear (s : FamilySettings) (year : Year) (h : House σ) : List FamilyEvent × House σ :=
  passMembers s year h.dynasty.family h

end House

end Annals
