import Annals.Family.Founding
import Annals.Family.Year
import Annals.Proofs.Family.Life
/-!
# The moves of family life

Everything that happens to families is one of three moves: a founding, a year on the marriage
market, and the turn of a member in the year of a dynasty.

* `Market.update_cases`: the market loses candidates and may win a newcomer.
* `House.Fared`, `House.Turned`: what a turn can bring, with the guards under which it does.
* `House.turned`: every turn is of this kind.
* `Dynasty.found_eq`: a founding; `Dynasty.foundAll_induction`: all of them.
-/

namespace Annals

/-! ## The market -/

namespace Market

/-- The ids on the market. -/
def persons (m : Market) : List PersonId := m.candidates.map Candidate.person

theorem mem_remove {m : Market} {x y : PersonId} :
    y ∈ (m.remove x).persons ↔ y ∈ m.persons ∧ y ≠ x := by
  simp only [persons, remove, List.mem_map, List.mem_filter, decide_eq_true_eq]
  constructor
  · rintro ⟨c, ⟨hc, hne⟩, rfl⟩
    exact ⟨⟨c, hc, rfl⟩, hne⟩
  · rintro ⟨⟨c, hc, rfl⟩, hne⟩
    exact ⟨c, ⟨hc, hne⟩, rfl⟩

theorem persons_expire (m : Market) (roster : Roster) :
    (m.expire roster).persons ⊆ m.persons := by
  intro x hx
  simp only [persons, expire, List.map_map, List.mem_map, List.mem_filter] at hx ⊢
  obtain ⟨c, ⟨hc, -⟩, rfl⟩ := hx
  exact ⟨c, hc, rfl⟩

/-- The suitable persons are those on the market who meet the guards. -/
theorem mem_suitable {m : Market} {settings : MarriageSettings} {seeker : Person} {year : Year}
    {roster : Roster} (hnumbered : roster.Numbered) {x : PersonId} :
    x ∈ m.suitable settings seeker year roster ↔
      x ∈ m.persons ∧ ∃ p, roster.get? x = some p ∧ suits settings seeker year p = true := by
  simp only [suitable, persons, List.mem_map, List.mem_filter, List.mem_filterMap]
  constructor
  · rintro ⟨p, ⟨⟨c, hc, hp⟩, hsuits⟩, rfl⟩
    have hid := hnumbered.id_eq hp
    exact ⟨⟨c, hc, hid.symm⟩, p, hid ▸ hp, hsuits⟩
  · rintro ⟨⟨c, hc, rfl⟩, p, hp, hsuits⟩
    exact ⟨p, ⟨⟨c, hc, hp⟩, hsuits⟩, hnumbered.id_eq hp⟩

variable {σ : Type} [Dice σ]

theorem findPartner_mem {m : Market} {settings : MarriageSettings} {seeker : Person} {year : Year}
    {roster : Roster} {dice dice' : σ} {x : PersonId}
    (h : m.findPartner settings seeker year roster dice = (some x, dice')) :
    x ∈ m.suitable settings seeker year roster := by
  unfold findPartner at h
  split at h
  case h_1 => cases h
  case h_2 first rest hlist =>
    cases h
    rw [hlist]
    exact List.get_mem _ _

/-- A year takes candidates off the market, and it may bring a newcomer. -/
theorem update_cases (m : Market) (settings : FamilySettings) (year : Year) (roster : Roster)
    (dice : σ) :
    (∃ dice', m.update settings year roster dice = (m.expire roster, roster, dice')) ∨
    ∃ arrival dice', m.update settings year roster dice =
      ((m.expire roster).add roster.nextId settings.marriage.candidateYears,
        (roster.spawn arrival).2, dice') := by
  unfold update
  dsimp only
  split
  · exact .inl ⟨_, rfl⟩
  · exact .inr ⟨_, _, rfl⟩

end Market

/-! ## Members -/

namespace Dynasty

theorem mem_join {d : Dynasty} {id x : PersonId} :
    x ∈ (d.join id).family ↔ x ∈ d.family ∨ x = id := by
  unfold join
  split
  case isTrue hmember =>
    have hid : id ∈ d.family := by simpa [isMember] using hmember
    constructor
    · exact .inl
    · rintro (hold | rfl)
      · exact hold
      · exact hid
  case isFalse => simp

@[simp] theorem monarch_join (d : Dynasty) (id : PersonId) : (d.join id).monarch = d.monarch := by
  unfold join
  split <;> rfl

@[simp] theorem name_join (d : Dynasty) (id : PersonId) : (d.join id).name = d.name := by
  unfold join
  split <;> rfl

@[simp] theorem founder_join (d : Dynasty) (id : PersonId) : (d.join id).founder = d.founder := by
  unfold join
  split <;> rfl

theorem mem_leave {d : Dynasty} {id x : PersonId} :
    x ∈ (d.leave id).family ↔ x ∈ d.family ∧ x ≠ id := by
  simp [leave]

end Dynasty

/-! ## A member's turn -/

namespace House

variable {σ : Type} [Dice σ]

/-- A house in which a member has aged. -/
def aged (h : House σ) (id : PersonId) (loss : Int32) (dice : σ) : House σ :=
  { h with roster := h.roster.weaken id loss, dice }

/-- A house in which a member has been buried. -/
def buried (h : House σ) (year : Year) (id : PersonId) : House σ :=
  { h with roster := h.roster.kill id year, dynasty := h.dynasty.leave id }

/-- A house in which the crown has passed to an heir. -/
def crowned (h : House σ) (heir : PersonId) : House σ :=
  { h with roster := h.roster.crown heir, dynasty := { h.dynasty with monarch := some heir } }

/-- A house without an heir to the crown. -/
def uncrowned (h : House σ) : House σ :=
  { h with dynasty := { h.dynasty with monarch := none } }

/-- A house in which a member has married somebody from the market. -/
def married (h : House σ) (id partner : PersonId) (dice : σ) : House σ :=
  { dynasty := h.dynasty.join partner, roster := h.roster.marry id partner
    market := h.market.remove partner, dice }

/-- A house with a newborn. -/
def withNewborn (h : House σ) (arrival : Roster.Arrival) (mother father : PersonId) (dice : σ) :
    House σ :=
  { h with
    dynasty := h.dynasty.join h.roster.nextId
    roster := h.roster.bear arrival mother father
    dice }

/-- What a turn can bring to a living member `p` who has aged. -/
inductive Fared (s : FamilySettings) (year : Year) (id : PersonId) (p : Person) (h : House σ) :
    List FamilyEvent → House σ → Prop
  /-- Nothing happens. -/
  | quiet (dice : σ) : Fared s year id p h [] { h with dice }
  /-- A member dies who does not wear the crown. -/
  | died (hother : h.dynasty.monarch ≠ some id) :
      Fared s year id p h
        [h.event year (.death ((h.buried year id).roster.nameOf id) (p.age year))]
        (h.buried year id)
  /-- The monarch dies and has an heir. -/
  | succeeded (isKing : Bool) {heir : PersonId} {kinship : Kinship}
      (hmonarch : h.dynasty.monarch = some id)
      (hheir : (h.buried year id).roster.heir? id year = some (heir, kinship)) :
      Fared s year id p h
        [h.event year (.death ((h.buried year id).roster.nameOf id) (p.age year)),
          h.event year (.succession (((h.buried year id).crowned heir).roster.nameOf id)
            (((h.buried year id).crowned heir).roster.nameOf heir) kinship isKing)]
        ((h.buried year id).crowned heir)
  /-- The monarch dies and has no heir. -/
  | ended (isKing : Bool) (hmonarch : h.dynasty.monarch = some id)
      (hheir : (h.buried year id).roster.heir? id year = none) :
      Fared s year id p h
        [h.event year (.death ((h.buried year id).roster.nameOf id) (p.age year)),
          h.event year (.noSuccessor ((h.buried year id).roster.nameOf id) isKing)]
        (h.buried year id).uncrowned
  /-- A grown member without a living partner marries somebody who suits. -/
  | married {partner : PersonId} (dice : σ) (hgrown : ¬ p.age year < s.marriage.minAge)
      (hsingle : h.roster.livingPartner? id = none)
      (hpartner : partner ∈ h.market.suitable s.marriage p year h.roster) :
      Fared s year id p h
        [h.event year (.marriage ((h.roster.marry id partner).nameOf id)
          ((h.roster.marry id partner).nameOf partner) (p.age year))]
        (h.married id partner dice)
  /-- A fertile woman with a living partner gives birth. -/
  | bore {father : PersonId} (drawn dice : σ)
      (hfertile : isFertile s.childbirth year p = true)
      (hfather : h.roster.livingPartner? id = some father) (arrival : Roster.Arrival)
      (harrival : arrival = (newborn s year p drawn).1) :
      Fared s year id p h
        [h.event year (.birth ((h.roster.bear arrival id father).nameOf h.roster.nextId)
          ((h.roster.bear arrival id father).nameOf id)
          ((h.roster.bear arrival id father).nameOf father))]
        (h.withNewborn arrival id father dice)

/-- What the turn of a member can bring. -/
inductive Turned (s : FamilySettings) (year : Year) (id : PersonId) (h : House σ) :
    List FamilyEvent → House σ → Prop
  /-- Someone who is dead already only leaves the family. -/
  | gone (hdead : h.roster.isAlive id = false) :
      Turned s year id h [] { h with dynasty := h.dynasty.leave id }
  /-- A living member ages before anything else happens. -/
  | aged {p : Person} {loss : Int32} {dice : σ} {events : List FamilyEvent} {next : House σ}
      (hget : (h.aged id loss dice).roster.get? id = some p) (halive : p.isAlive = true)
      (hfared : Fared s year id p (h.aged id loss dice) events next) :
      Turned s year id h events next

section Views

variable {s : FamilySettings} {year : Year} {id : PersonId} {p : Person} {h : House σ}

/-- A death is a case of its own for the monarch. -/
theorem fared_bury (s : FamilySettings) (year : Year) (id : PersonId) (p : Person) (h : House σ) :
    Fared s year id p h (h.bury year id (p.age year)).1 (h.bury year id (p.age year)).2 := by
  unfold bury
  dsimp only
  split
  case isFalse hother => exact .died hother
  case isTrue hmonarch =>
    unfold passCrown
    dsimp only
    split
    case h_1 heir kinship hheir => exact .succeeded _ hmonarch hheir
    case h_2 hheir => exact .ended _ hmonarch hheir

/-- Someone who does not marry has at most used the dice. -/
theorem tryMarry_cases (hget : h.roster.get? id = some p) :
    (∃ dice, tryMarry s.marriage year id h = (none, { h with dice })) ∨
    ∃ event next, tryMarry s.marriage year id h = (some event, next) ∧
      Fared s year id p h [event] next := by
  unfold tryMarry
  rw [hget]
  dsimp only
  split
  case isTrue => exact .inl ⟨h.dice, rfl⟩
  case isFalse hguard =>
    have hguards : ¬ p.age year < s.marriage.minAge ∧ h.roster.livingPartner? id = none := by
      simpa using hguard
    split
    case isTrue => exact .inl ⟨_, rfl⟩
    case isFalse =>
      split
      case h_1 => exact .inl ⟨_, rfl⟩
      case h_2 partner dice hfound =>
        have hpartner := Market.findPartner_mem hfound
        exact .inr ⟨_, _, rfl, .married dice hguards.1 hguards.2 hpartner⟩

/-- A woman who does not give birth has at most used the dice. -/
theorem fared_tryBirth (hget : h.roster.get? id = some p) :
    Fared s year id p h (tryBirth s year id h).1.toList (tryBirth s year id h).2 := by
  unfold tryBirth
  rw [hget]
  dsimp only
  split
  case isTrue => exact .quiet h.dice
  case isFalse hguard =>
    have hfertile : isFertile s.childbirth year p = true := by simpa using hguard
    split
    case h_1 => exact .quiet h.dice
    case h_2 father hfather =>
      split
      case isTrue => exact .quiet _
      case isFalse => exact .bore _ _ hfertile hfather _ rfl

/-- A member who ages loses health, and may die at the present age. -/
theorem age_cases (s : AgeingSettings) (year : Year) {id : PersonId} {p : Person} {h : House σ}
    (hget : h.roster.get? id = some p) :
    ∃ loss dice, age s year id h = (none, h.aged id loss dice) ∨
      age s year id h = (some ((Roster.weakened loss p).age year), h.aged id loss dice) := by
  unfold age
  -- What the draws give does not matter, so each is taken apart and forgotten.
  rcases Dice.between s.healthLossMin s.healthLossMax h.dice with ⟨loss, dice⟩
  have haged : (h.roster.weaken id loss).get? id = some (Roster.weakened loss p) := by
    unfold Roster.weaken
    rw [Roster.get?_update_self, hget]
    rfl
  change (h.roster.update id fun p => { p with health := p.health - loss }).get? id = _ at haged
  simp only [haged]
  rcases Dice.between 0 s.maxAgeBonus dice with ⟨bonus, dice⟩
  refine ⟨loss, dice, ?_⟩
  split
  · exact .inr rfl
  · exact .inl rfl

/-- Every turn is one of those above. -/
theorem turned (s : FamilySettings) (year : Year) (id : PersonId) (h : House σ) :
    Turned s year id h (passMember s year id h).1 (passMember s year id h).2 := by
  unfold passMember
  split
  case isTrue hdead =>
    have hdead' : h.roster.isAlive id = false := by simpa using hdead
    exact .gone hdead'
  case isFalse hguard =>
    have hliving : h.roster.isAlive id = true := by simpa using hguard
    obtain ⟨p, hp, halive⟩ := Roster.exists_of_isAlive hliving
    obtain ⟨loss, dice, hage⟩ := age_cases s.ageing year hp
    have hget : ∀ dice, (h.aged id loss dice).roster.get? id = some (Roster.weakened loss p) := by
      intro dice
      show (h.roster.update id (Roster.weakened loss)).get? id = _
      rw [Roster.get?_update_self, hp]
      rfl
    rcases hage with hage | hage
    · rw [hage]
      dsimp only
      rcases tryMarry_cases (s := s) (hget dice) with
        ⟨dice', hsingle⟩ | ⟨event, next, hwed, hfared⟩
      · -- Without a marriage the turn goes on with other dice.
        rw [hsingle]
        exact .aged (hget dice') halive (fared_tryBirth (hget dice'))
      · rw [hwed]
        exact .aged (hget dice) halive hfared
    · rw [hage]
      exact .aged (hget dice) halive (fared_bury ..)

/-- A turn forgets nobody. -/
theorem Fared.continues {events : List FamilyEvent} {next : House σ}
    (hfared : Fared s year id p h events next) : h.roster.Continues next.roster := by
  cases hfared with
  | quiet dice => exact .refl h.roster
  | died hother => exact .kill h.roster id year
  | succeeded isKing hmonarch hheir =>
    exact (Roster.Continues.kill h.roster id year).trans (.crown ..)
  | ended isKing hmonarch hheir => exact .kill h.roster id year
  | married dice hgrown hsingle hpartner => exact .marry ..
  | bore drawn dice hfertile hfather arrival harrival => exact .bear ..

theorem Turned.continues {events : List FamilyEvent} {next : House σ}
    (hturned : Turned s year id h events next) : h.roster.Continues next.roster := by
  cases hturned with
  | gone hdead => exact .refl h.roster
  | aged hget halive hfared => exact (Roster.Continues.weaken h.roster id _).trans hfared.continues

/-- A turn leaves every person at the id. -/
theorem Turned.numbered {events : List FamilyEvent} {next : House σ}
    (hturned : Turned s year id h events next) (hr : h.roster.Numbered) :
    next.roster.Numbered := by
  cases hturned with
  | gone hdead => exact hr
  | @aged p loss _ _ _ hget halive hfared =>
    have haged := hr.weaken id loss
    have hburied := haged.kill id year
    cases hfared with
    | quiet dice => exact haged
    | died hother => exact hburied
    | succeeded isKing hmonarch hheir => exact hburied.crown _
    | ended isKing hmonarch hheir => exact hburied
    | married dice hgrown hsingle hpartner => exact haged.marry id _
    | bore drawn dice hfertile hfather arrival harrival =>
      exact (haged.spawn arrival).addChild id _ _

/-- The living members of a house stay in it. -/
theorem Fared.stays {events : List FamilyEvent} {next : House σ}
    (hfared : Fared s year id p h events next) {x : PersonId}
    (hmember : h.roster.isAlive x = true → x ∈ h.dynasty.family)
    (halive : next.roster.isAlive x = true) : x ∈ next.dynasty.family := by
  -- After a burial the living are those who lived before, without the dead member.
  have hburied : (h.roster.kill id year).isAlive x = true → x ∈ (h.dynasty.leave id).family := by
    intro hx
    obtain ⟨hne, hbefore⟩ := (Roster.isAlive_kill ..).1 hx
    exact Dynasty.mem_leave.2 ⟨hmember hbefore, hne⟩
  cases hfared with
  | quiet dice => exact hmember halive
  | died hother => exact hburied halive
  | succeeded isKing hmonarch hheir =>
    refine hburied ?_
    rw [← Roster.isAlive_crown]
    exact halive
  | ended isKing hmonarch hheir => exact hburied halive
  | married dice hgrown hsingle hpartner =>
    refine Dynasty.mem_join.2 (.inl (hmember ?_))
    rw [← Roster.isAlive_marry]
    exact halive
  | bore drawn dice hfertile hfather arrival harrival =>
    -- The newborn lives, and has joined.
    refine Dynasty.mem_join.2 ?_
    have hspawned : (h.roster.spawn arrival).2.isAlive x = true := by
      rw [← Roster.isAlive_addChild]
      exact halive
    rcases Roster.isAlive_spawn hspawned with hbefore | hnext
    · exact .inl (hmember hbefore)
    · exact .inr hnext

theorem Turned.stays {events : List FamilyEvent} {next : House σ}
    (hturned : Turned s year id h events next) {x : PersonId}
    (hmember : h.roster.isAlive x = true → x ∈ h.dynasty.family)
    (halive : next.roster.isAlive x = true) : x ∈ next.dynasty.family := by
  cases hturned with
  | gone hdead =>
    -- Only a dead one leaves without a burial.
    refine Dynasty.mem_leave.2 ⟨hmember halive, ?_⟩
    rintro rfl
    rw [hdead] at halive
    cases halive
  | aged hget hliving hfared =>
    refine hfared.stays (fun hx => hmember ?_) halive
    rw [← Roster.isAlive_weaken]
    exact hx

end Views

end House

/-! ## Foundings -/

namespace Roster

/-- The roster with a founding couple: two newcomers who are married to each other, the first of
them a monarch. -/
def withCouple (r : Roster) (king queen : Arrival) : Roster :=
  (((r.spawn king).2.spawn queen).2.marry r.nextId (r.spawn king).2.nextId).crown r.nextId

theorem Continues.withCouple (r : Roster) (king queen : Arrival) :
    r.Continues (r.withCouple king queen) := by
  have hspawned := (Continues.spawn r king).trans (.spawn _ queen)
  exact (hspawned.trans (.marry ..)).trans (.crown ..)

theorem Numbered.withCouple {r : Roster} (h : r.Numbered) (king queen : Arrival) :
    (r.withCouple king queen).Numbered :=
  (((h.spawn king).spawn queen).marry r.nextId (r.spawn king).2.nextId).crown r.nextId

end Roster

namespace Dynasty

variable {σ : Type} [Dice σ]

/-- A founding brings a king and a queen into the roster. -/
theorem found_eq (name : String) (year : Year) (health : Int32) (r : Roster) (dice : σ) :
    ∃ king queen dice', king.gender = .male ∧ queen.gender = .female ∧
      found name year health r dice =
        (ofCouple name r.nextId (r.spawn king).2.nextId, r.withCouple king queen, dice') :=
  ⟨_, _, _, rfl, rfl, rfl⟩

/-- What every founding keeps holds after all of them. -/
theorem foundAll_induction {P : List Dynasty → Roster → Prop}
    (hfound : ∀ {ds r} (name : String) {king queen : Roster.Arrival}, king.gender = .male →
      queen.gender = .female → P ds r →
      P (ds ++ [.ofCouple name r.nextId (r.spawn king).2.nextId]) (r.withCouple king queen))
    (year : Year) (health : Int32) {ds : List Dynasty} {r : Roster} (names : List String)
    (dice : σ) (hP : P ds r) :
    P (ds ++ (foundAll year health names r dice).1) (foundAll year health names r dice).2.1 := by
  induction names generalizing ds r dice with
  | nil =>
    rw [show (foundAll year health [] r dice).1 = [] from rfl, List.append_nil]
    exact hP
  | cons name rest ih =>
    obtain ⟨king, queen, dice', hking, hqueen, hcouple⟩ := found_eq name year health r dice
    have hnext := ih dice' (hfound name hking hqueen hP)
    unfold foundAll
    rw [hcouple]
    rw [List.append_assoc] at hnext
    exact hnext

theorem continues_foundAll (year : Year) (health : Int32) (names : List String) (r : Roster)
    (dice : σ) : r.Continues (foundAll year health names r dice).2.1 := by
  induction names generalizing r dice with
  | nil => exact .refl r
  | cons name rest ih =>
    obtain ⟨king, queen, dice', -, -, hcouple⟩ := found_eq name year health r dice
    have hnext := (Roster.Continues.withCouple r king queen).trans (ih _ dice')
    unfold foundAll
    rw [hcouple]
    exact hnext

/-- Foundings use the names in their order. -/
theorem map_name_foundAll (year : Year) (health : Int32) (names : List String) (r : Roster)
    (dice : σ) : (foundAll year health names r dice).1.map Dynasty.name = names := by
  induction names generalizing r dice with
  | nil => rfl
  | cons name rest ih => exact congrArg (name :: ·) (ih ..)

end Dynasty

end Annals
