import Annals.Proofs.Family.Turn
import Annals.Proofs.Operations
/-!
# The operations of family life

The operations on words that a founding, a year on the marriage market and the turn of a member
perform, in the order in which they are performed and under the guards under which they are.

* `Dynasty.foundAllOperations`, `Market.updateOperations`: foundings and the market.
* `House.memberOperations`, `House.yearOperations`: a member's turn, and the year of a house.
* `House.performed`: only the living perform anything in their turns, and what that can be.
* `House.survives`: nobody survives the own turn without health, or beyond the greatest age.
* `TurnLaw`: what turns keep under a condition on the operations, and what it says of them.
-/

namespace Annals

/-! ## Persons -/

/-- The difference that an age is. -/
def Person.ageOperation (p : Person) (year : Year) : Operation :=
  .sub (p.deathYear.getD year) p.birthYear

theorem Person.ageOperation_of_isAlive {p : Person} (h : p.isAlive = true) (year : Year) :
    p.ageOperation year = .sub year p.birthYear := by
  unfold ageOperation
  rw [Option.isNone_iff_eq_none.1 h]
  rfl

namespace Roster

/-- The ages of the living of a list of ids. -/
def agesOf (r : Roster) (year : Year) (ids : List PersonId) : List Operation :=
  ((ids.filterMap r.get?).filter (·.isAlive)).map (·.ageOperation year)

/-- The search for an heir asks for the ages of the children, and for those of the siblings when no
child can take the throne. -/
def heirOperations (r : Roster) (monarch : PersonId) (year : Year) : List Operation :=
  match r.get? monarch with
  | none => []
  | some p =>
    r.agesOf year p.children ++
      match oldest? (r.grown year p.children) with
      | some _ => []
      | none => r.agesOf year (r.siblingIds p monarch)

/-- The health of an id. -/
def healthOf (r : Roster) (id : PersonId) : Option Int32 := (r.get? id).map Person.health

theorem healthOf_of_get? {r : Roster} {id : PersonId} {p : Person} (h : r.get? id = some p) :
    r.healthOf id = some p.health := congrArg (Option.map Person.health) h

theorem healthOf_kill (r : Roster) (id : PersonId) (year : Year) (x : PersonId) :
    (r.kill id year).healthOf x = r.healthOf x :=
  update_frame (f := deceased year) (Option.map Person.health) (fun _ => rfl) r id x

theorem healthOf_crown (r : Roster) (id x : PersonId) : (r.crown id).healthOf x = r.healthOf x :=
  update_frame (f := withCrown) (Option.map Person.health) (fun _ => rfl) r id x

theorem healthOf_marry (r : Roster) (a b x : PersonId) :
    (r.marry a b).healthOf x = r.healthOf x :=
  marry_frame (Option.map Person.health) (fun _ _ => rfl) r a b x

theorem healthOf_addChild (r : Roster) (mother father child x : PersonId) :
    (r.addChild mother father child).healthOf x = r.healthOf x :=
  addChild_frame (Option.map Person.health) (fun _ _ _ => rfl) r mother father child x

end Roster

section Draws

variable {σ : Type} [Dice σ]

/-! ## Foundings -/

namespace Dynasty

/-- The years of birth of a founding couple. -/
def foundOperations (year : Year) (dice : σ) : List Operation :=
  let (kingAge, dice) := Dice.between founderMinAge founderMaxAge dice
  let (queenAge, _) := Dice.between founderMinAge founderMaxAge dice
  [.sub year kingAge, .sub year queenAge]

/-- A founding, with the operations that give the years of birth. -/
theorem found_performs (name : String) (year : Year) (health : Int32) (r : Roster) (dice : σ) :
    ∃ (king queen : Roster.Arrival) (kingAge queenAge dice' : σ),
      found name year health r dice =
        (ofCouple name r.nextId (r.spawn king).2.nextId, r.withCouple king queen, dice') ∧
      king.birthYear = year - (Dice.between founderMinAge founderMaxAge kingAge).1 ∧
      queen.birthYear = year - (Dice.between founderMinAge founderMaxAge queenAge).1 ∧
      king.health = health ∧ queen.health = health ∧
      foundOperations year dice =
        [.sub year (Dice.between founderMinAge founderMaxAge kingAge).1,
          .sub year (Dice.between founderMinAge founderMaxAge queenAge).1] :=
  ⟨_, _, dice, (Dice.between founderMinAge founderMaxAge dice).2, _, rfl, rfl, rfl, rfl, rfl, rfl⟩

/-- The years of birth of all founders. -/
def foundAllOperations (year : Year) (health : Int32) :
    List String → Roster → σ → List Operation
  | [], _, _ => []
  | name :: rest, roster, dice =>
    let (_, next, dice') := found name year health roster dice
    foundOperations year dice ++ foundAllOperations year health rest next dice'

end Dynasty

/-! ## The market -/

namespace Market

/-- Each candidate who stays has a year less. -/
def expireOperations (m : Market) (roster : Roster) : List Operation :=
  (m.candidates.filter (stays roster)).map fun c => .pred c.remaining

/-- The year of birth of a new candidate. -/
def newcomerOperations (settings : FamilySettings) (year : Year) (dice : σ) : List Operation :=
  let (gender, dice) := Dice.gender dice
  let (_, dice) := Dice.givenName gender dice
  let (age, _) :=
    Dice.between settings.marriage.candidateMinAge settings.marriage.candidateMaxAge dice
  [.sub year age]

/-- A year on the market. -/
def updateOperations (m : Market) (settings : FamilySettings) (year : Year) (roster : Roster)
    (dice : σ) : List Operation :=
  m.expireOperations roster ++
    let (roll, dice) := Dice.roll dice
    if roll.reaches settings.marriage.newCandidateChance then []
    else newcomerOperations settings year dice

/-- A year on the market: the candidates who stay have a year less, and a newcomer has the year of
birth that was performed. -/
theorem update_performs (m : Market) (settings : FamilySettings) (year : Year) (roster : Roster)
    (dice : σ) :
    (∃ dice', m.update settings year roster dice = (m.expire roster, roster, dice') ∧
      m.updateOperations settings year roster dice = m.expireOperations roster) ∨
    ∃ (arrival : Roster.Arrival) (age dice' : σ),
      m.update settings year roster dice =
        ((m.expire roster).add roster.nextId settings.marriage.candidateYears,
          (roster.spawn arrival).2, dice') ∧
      arrival.birthYear = year - (Dice.between settings.marriage.candidateMinAge
        settings.marriage.candidateMaxAge age).1 ∧
      arrival.health = settings.ageing.initialHealth ∧
      m.updateOperations settings year roster dice = m.expireOperations roster ++
        [.sub year (Dice.between settings.marriage.candidateMinAge
          settings.marriage.candidateMaxAge age).1] := by
  unfold update updateOperations
  dsimp only
  split
  · exact .inl ⟨_, rfl, List.append_nil _⟩
  · exact .inr ⟨_, _, _, rfl, rfl, rfl, rfl⟩

/-- The guards on a candidate that come before the difference of ages. -/
def couldSuit (seeker p : Person) : Bool :=
  p.id ≠ seeker.id && p.isAlive && p.gender ≠ seeker.gender && p.partners.isEmpty

/-- The search for a partner compares the age of each candidate in question with the seeker's. -/
def findPartnerOperations (m : Market) (seeker : Person) (year : Year) (roster : Roster) :
    List Operation :=
  seeker.ageOperation year ::
    ((m.candidates.filterMap fun c => roster.get? c.person).filter (couldSuit seeker)).flatMap
      fun p => [p.ageOperation year, .sub (p.age year) (seeker.age year),
        .abs (p.age year - seeker.age year)]

end Market

/-! ## A member's turn -/

namespace House

/-- The loss of health, the age, and the greatest age of the year. -/
def ageOperations (s : AgeingSettings) (year : Year) (id : PersonId) (h : House σ) :
    List Operation :=
  let (loss, dice) := Dice.between s.healthLossMin s.healthLossMax h.dice
  match h.roster.get? id with
  | none => []
  | some p =>
    let (bonus, _) := Dice.between 0 s.maxAgeBonus dice
    [.sub p.health loss, p.ageOperation year, .add s.maxBaseAge bonus]

/-- The age of somebody who may marry, the years above the least age, and the search for a
partner. -/
def marryOperations (s : MarriageSettings) (year : Year) (id : PersonId) (h : House σ) :
    List Operation :=
  match h.roster.get? id with
  | none => []
  | some p =>
    p.ageOperation year ::
      if p.age year < s.minAge || (h.roster.livingPartner? id).isSome then []
      else .sub (p.age year) s.minAge ::
        if (Dice.roll h.dice).1.reaches (s.chanceAt (p.age year)) then []
        else h.market.findPartnerOperations p year h.roster

/-- The age of a woman who may give birth. -/
def birthOperations (year : Year) (id : PersonId) (h : House σ) : List Operation :=
  match h.roster.get? id with
  | none => []
  | some p => if p.gender = .female then [p.ageOperation year] else []

/-- The turn of a member: ageing, and then the search for an heir, a wedding or a birth. -/
def memberOperations (s : FamilySettings) (year : Year) (id : PersonId) (h : House σ) :
    List Operation :=
  if !h.roster.isAlive id then []
  else
    ageOperations s.ageing year id h ++
      match age s.ageing year id h with
      | (some _, h) =>
        if h.dynasty.monarch = some id then (h.roster.kill id year).heirOperations id year else []
      | (none, h) =>
        marryOperations s.marriage year id h ++
          match tryMarry s.marriage year id h with
          | (some _, _) => []
          | (none, h) => birthOperations year id h

/-- The turns of the members of a list. -/
def membersOperations (s : FamilySettings) (year : Year) :
    List PersonId → House σ → List Operation
  | [], _ => []
  | id :: rest, h =>
    memberOperations s year id h ++ membersOperations s year rest (passMember s year id h).2

/-- The year of a house. -/
def yearOperations (s : FamilySettings) (year : Year) (h : House σ) : List Operation :=
  membersOperations s year h.dynasty.family h

/-! ## What a turn can perform -/

/-- The loss of health that dice give. -/
def drawnLoss (s : AgeingSettings) (dice : σ) : Int32 :=
  (Dice.between s.healthLossMin s.healthLossMax dice).1

/-- What dice add to the greatest age. -/
def drawnBonus (s : AgeingSettings) (dice : σ) : Int32 := (Dice.between 0 s.maxAgeBonus dice).1

section Views

variable {s : FamilySettings} {year : Year} {id : PersonId} {p : Person} {h : House σ}

omit [Dice σ] in
theorem get?_aged (hget : h.roster.get? id = some p) (loss : Int32) (dice : σ) :
    (h.aged id loss dice).roster.get? id = some (Roster.weakened loss p) := by
  show (h.roster.update id _).get? id = _
  rw [Roster.get?_update_self, hget]
  rfl

/-- What ageing performs, and what it leaves: whoever does not die has health left and is not beyond
the greatest age of the year. -/
theorem age_performs (s : AgeingSettings) (year : Year) (hget : h.roster.get? id = some p) :
    ∃ loss bonus dice : σ,
      ageOperations s year id h =
        [.sub p.health (drawnLoss s loss), p.ageOperation year,
          .add s.maxBaseAge (drawnBonus s bonus)] ∧
      (age s year id h = (some (p.age year), h.aged id (drawnLoss s loss) dice) ∨
        age s year id h = (none, h.aged id (drawnLoss s loss) dice) ∧
          ¬ p.health - drawnLoss s loss ≤ 0 ∧
          ¬ s.maxBaseAge + drawnBonus s bonus < p.age year) := by
  refine ⟨h.dice, (Dice.between s.healthLossMin s.healthLossMax h.dice).2,
    (Dice.between 0 s.maxAgeBonus (Dice.between s.healthLossMin s.healthLossMax h.dice).2).2,
    ?_, ?_⟩
  · unfold ageOperations
    rw [hget]
    rfl
  · unfold age
    dsimp only
    rw [Roster.get?_update_self, hget]
    dsimp only [Option.map_some]
    split
    case isTrue hdies => exact .inl rfl
    case isFalse hlives =>
      rw [Bool.or_eq_true, decide_eq_true_eq, decide_eq_true_eq, not_or] at hlives
      exact .inr ⟨rfl, hlives⟩

/-- What the turn of a living member `p` can perform. -/
inductive Performed (s : FamilySettings) (year : Year) (id : PersonId) (p : Person) (h : House σ) :
    Operation → Prop
  /-- The loss of health. -/
  | weakened (drawn : σ) :
      Performed s year id p h (.sub p.health (drawnLoss s.ageing drawn))
  /-- The age. -/
  | aged : Performed s year id p h (p.ageOperation year)
  /-- The greatest age of the year. -/
  | limited (drawn : σ) :
      Performed s year id p h (.add s.ageing.maxBaseAge (drawnBonus s.ageing drawn))
  /-- The search for the heir of a monarch. -/
  | succeeded {op : Operation} (loss : Int32) (dice : σ)
      (hop : op ∈ ((h.aged id loss dice).buried year id).roster.heirOperations id year) :
      Performed s year id p h op
  /-- The years above the least age of marriage. -/
  | grew (hgrown : ¬ p.age year < s.marriage.minAge) :
      Performed s year id p h (.sub (p.age year) s.marriage.minAge)
  /-- The age of a candidate, compared with the member's. -/
  | sought {op : Operation} {c : Candidate} {q : Person} (loss : Int32)
      (hc : c ∈ h.market.candidates) (hget : (h.roster.weaken id loss).get? c.person = some q)
      (halive : q.isAlive = true)
      (hop : op ∈ [q.ageOperation year, .sub (q.age year) (p.age year),
        .abs (q.age year - p.age year)]) :
      Performed s year id p h op

theorem performed_marry {loss : Int32} {dice : σ} {op : Operation}
    (hget : (h.aged id loss dice).roster.get? id = some (Roster.weakened loss p))
    (hop : op ∈ marryOperations s.marriage year id (h.aged id loss dice)) :
    Performed s year id p h op := by
  unfold marryOperations at hop
  rw [hget, List.mem_cons] at hop
  rcases hop with rfl | hop
  · exact .aged
  · split at hop
    case isTrue => exact absurd hop List.not_mem_nil
    case isFalse hguard =>
      have hgrown : ¬ p.age year < s.marriage.minAge := by
        intro hless
        refine hguard ?_
        rw [Bool.or_eq_true]
        exact .inl (decide_eq_true hless)
      rw [List.mem_cons] at hop
      rcases hop with rfl | hop
      · exact .grew hgrown
      · split at hop
        case isTrue => exact absurd hop List.not_mem_nil
        case isFalse =>
          unfold Market.findPartnerOperations at hop
          rw [List.mem_cons] at hop
          rcases hop with rfl | hop
          · exact .aged
          · -- Somebody on the market who has come as far as the comparison of ages.
            obtain ⟨q, hq, hop⟩ := List.mem_flatMap.1 hop
            rw [List.mem_filter, List.mem_filterMap] at hq
            obtain ⟨⟨c, hc, hcq⟩, hsuits⟩ := hq
            have halive : q.isAlive = true := by
              unfold Market.couldSuit at hsuits
              simp only [Bool.and_eq_true] at hsuits
              exact hsuits.1.1.2
            exact .sought loss hc hcq halive hop

theorem performed_birth {loss : Int32} {dice : σ} {op : Operation}
    (hget : (h.aged id loss dice).roster.get? id = some (Roster.weakened loss p))
    (hop : op ∈ birthOperations year id (h.aged id loss dice)) : Performed s year id p h op := by
  unfold birthOperations at hop
  rw [hget] at hop
  dsimp only at hop
  split at hop
  case isTrue =>
    rw [List.mem_singleton] at hop
    rw [hop]
    exact .aged
  case isFalse => exact absurd hop List.not_mem_nil

/-- Only the living perform anything, and what they perform is one of those above. -/
theorem performed {op : Operation} (hop : op ∈ memberOperations s year id h) :
    ∃ p, h.roster.get? id = some p ∧ p.isAlive = true ∧ Performed s year id p h op := by
  unfold memberOperations at hop
  split at hop
  case isTrue => exact absurd hop List.not_mem_nil
  case isFalse hguard =>
    have hliving : h.roster.isAlive id = true := by simpa using hguard
    obtain ⟨p, hp, halive⟩ := Roster.exists_of_isAlive hliving
    refine ⟨p, hp, halive, ?_⟩
    obtain ⟨loss, bonus, dice, hoperations, hage⟩ := age_performs s.ageing year hp
    have hget := get?_aged hp (drawnLoss s.ageing loss)
    rw [hoperations, List.mem_append] at hop
    rcases hop with hop | hop
    · simp only [List.mem_cons, List.not_mem_nil, or_false] at hop
      rcases hop with rfl | rfl | rfl
      · exact .weakened loss
      · exact .aged
      · exact .limited bonus
    · rcases hage with hage | ⟨hage, -, -⟩
      · -- A dead monarch needs an heir.
        rw [hage] at hop
        dsimp only at hop
        split at hop
        case isTrue => exact .succeeded _ dice hop
        case isFalse => exact absurd hop List.not_mem_nil
      · rw [hage, List.mem_append] at hop
        rcases hop with hop | hop
        · exact performed_marry (hget dice) hop
        · rcases @tryMarry_cases σ _ s year id _ _ (hget dice) with
            ⟨dice', hsingle⟩ | ⟨event, next, hwed, -⟩
          · -- Without a marriage only the dice have changed.
            rw [hsingle] at hop
            exact performed_birth (hget dice') hop
          · rw [hwed] at hop
            exact absurd hop List.not_mem_nil

/-- Everyone alive is asked for the age. -/
theorem ageOperation_mem (hget : h.roster.get? id = some p) (halive : p.isAlive = true) :
    p.ageOperation year ∈ memberOperations s year id h := by
  have hliving : h.roster.isAlive id = true := (Roster.isAlive_of_get? hget).trans halive
  obtain ⟨loss, bonus, dice, hoperations, -⟩ := age_performs s.ageing year hget
  unfold memberOperations
  rw [hliving, hoperations]
  exact List.mem_append_left _ (List.mem_cons_of_mem _ List.mem_cons_self)

/-! ## Health -/

/-- Whatever follows ageing in a turn leaves everyone's health alone. -/
theorem Fared.healthOf {events : List FamilyEvent} {next : House σ}
    (hfared : Fared s year id p h events next) {x : PersonId} {q : Person}
    (hq : h.roster.get? x = some q) : next.roster.healthOf x = some q.health := by
  have hbefore : h.roster.healthOf x = some q.health := Roster.healthOf_of_get? hq
  have hburied : (h.roster.kill id year).healthOf x = some q.health :=
    (Roster.healthOf_kill ..).trans hbefore
  cases hfared with
  | quiet dice => exact hbefore
  | died hother => exact hburied
  | succeeded isKing hmonarch hheir => exact (Roster.healthOf_crown ..).trans hburied
  | ended isKing hmonarch hheir => exact hburied
  | married dice hgrown hsingle hpartner => exact (Roster.healthOf_marry ..).trans hbefore
  | bore drawn dice hfertile hfather arrival harrival =>
    exact (Roster.healthOf_addChild ..).trans
      (Roster.healthOf_of_get? (Roster.get?_spawn_of_some hq arrival))

/-- A turn leaves the health of everyone else alone. -/
theorem Turned.healthOf {events : List FamilyEvent} {next : House σ}
    (hturned : Turned s year id h events next) {x : PersonId} {q : Person}
    (hq : h.roster.get? x = some q) (hne : h.roster.isAlive id = true → x ≠ id) :
    next.roster.healthOf x = some q.health := by
  cases hturned with
  | gone hdead => exact Roster.healthOf_of_get? hq
  | @aged p loss _ _ _ hget halive hfared =>
    have hliving : h.roster.isAlive id = true := by
      rw [← Roster.isAlive_weaken h.roster id loss]
      exact (Roster.isAlive_of_get? hget).trans halive
    refine hfared.healthOf ?_
    exact (Roster.get?_update_ne (hne hliving) h.roster (Roster.weakened loss)).trans hq

omit [Dice σ] in
theorem isAlive_bury (year : Year) (id : PersonId) (age : Int32) (h : House σ) :
    (h.bury year id age).2.roster.isAlive id = false := by
  have hdead : (h.roster.kill id year).isAlive id = false :=
    Bool.eq_false_iff.2 fun halive => ((Roster.isAlive_kill ..).1 halive).1 rfl
  unfold bury
  dsimp only
  split
  case isFalse => exact hdead
  case isTrue =>
    unfold passCrown
    dsimp only
    split
    · exact (Roster.isAlive_crown ..).trans hdead
    · exact hdead

/-- A living member loses health once in the own turn, and survives it neither without health nor
beyond the greatest age of the year. -/
theorem healthOf_passMember (s : FamilySettings) (year : Year) (hget : h.roster.get? id = some p)
    (halive : p.isAlive = true) :
    ∃ loss bonus : σ,
      (passMember s year id h).2.roster.healthOf id =
        some (p.health - drawnLoss s.ageing loss) ∧
      ((passMember s year id h).2.roster.isAlive id = true →
        ¬ p.health - drawnLoss s.ageing loss ≤ 0 ∧
          ¬ s.ageing.maxBaseAge + drawnBonus s.ageing bonus < p.age year) := by
  have hliving : h.roster.isAlive id = true := (Roster.isAlive_of_get? hget).trans halive
  obtain ⟨loss, bonus, dice, -, hage⟩ := age_performs s.ageing year hget
  have haged := get?_aged hget (drawnLoss s.ageing loss)
  refine ⟨loss, bonus, ?_⟩
  unfold passMember
  rw [hliving, if_neg (by decide)]
  rcases hage with hage | ⟨hage, hhealth, hold⟩
  · have hburied := fared_bury s year id (Roster.weakened (drawnLoss s.ageing loss) p)
      (h.aged id (drawnLoss s.ageing loss) dice)
    rw [hage]
    refine ⟨hburied.healthOf (haged dice), fun hsurvives => ?_⟩
    exact absurd hsurvives (Bool.eq_false_iff.1 (isAlive_bury ..))
  · refine ⟨?_, fun _ => ⟨hhealth, hold⟩⟩
    rw [hage]
    dsimp only
    rcases @tryMarry_cases σ _ s year id _ _ (haged dice) with
      ⟨dice', hsingle⟩ | ⟨event, next, hwed, hfared⟩
    · rw [hsingle]
      exact (fared_tryBirth (haged dice')).healthOf (haged dice')
    · rw [hwed]
      exact hfared.healthOf (haged dice)

/-- Nobody survives the own turn without health, or beyond the greatest age of the year. -/
theorem survives (hget : h.roster.get? id = some p) (halive : p.isAlive = true)
    (hsurvives : (passMember s year id h).2.roster.isAlive id = true) :
    ∃ loss bonus : σ, ¬ p.health - drawnLoss s.ageing loss ≤ 0 ∧
      ¬ s.ageing.maxBaseAge + drawnBonus s.ageing bonus < p.age year ∧
      (passMember s year id h).2.roster.healthOf id =
        some (p.health - drawnLoss s.ageing loss) := by
  obtain ⟨loss, bonus, hhealth, hlimits⟩ := healthOf_passMember s year hget halive
  obtain ⟨hleft, hyoung⟩ := hlimits hsurvives
  exact ⟨loss, bonus, hleft, hyoung, hhealth⟩

theorem continues_passMembers (s : FamilySettings) (year : Year) (ids : List PersonId)
    (h : House σ) : h.roster.Continues (passMembers s year ids h).2.roster := by
  induction ids generalizing h with
  | nil => exact .refl _
  | cons id rest ih => exact (turned s year id h).continues.trans (ih _)

end Views

end House

end Draws

/-! ## Laws of turns -/

/-- A property of those whose turn is still to come in a year and of the dynasties, the roster and
the market. It tells something of the operations of each turn, and a turn keeps it if something is
assumed of them. -/
structure TurnLaw (σ : Type) [Dice σ] (s : FamilySettings) (year : Year)
    (assumed granted : Operation → Prop)
    (P : List PersonId → List Dynasty → Roster → Market → Prop) : Prop where
  grants : ∀ {before behind : List Dynasty} {id : PersonId} {rest : List PersonId} {h : House σ},
    (h.roster.isAlive id = true → id ∈ h.dynasty.family) →
    P (id :: rest) (before ++ h.dynasty :: behind) h.roster h.market →
    ∀ op ∈ h.memberOperations s year id, granted op
  turn : ∀ {before behind : List Dynasty} {id : PersonId} {rest : List PersonId} {h : House σ},
    (h.roster.isAlive id = true → id ∈ h.dynasty.family) →
    (h.passMember s year id).2.roster.size ≤ 2 ^ 32 →
    (∀ op ∈ h.memberOperations s year id, assumed op) →
    P (id :: rest) (before ++ h.dynasty :: behind) h.roster h.market →
    P rest (before ++ (h.passMember s year id).2.dynasty :: behind)
      (h.passMember s year id).2.roster (h.passMember s year id).2.market

/-- What holds before the turns of a list holds after them and tells of all their operations. -/
theorem TurnLaw.passMembers {σ : Type} [Dice σ] {s : FamilySettings} {year : Year}
    {assumed granted : Operation → Prop} {P : List PersonId → List Dynasty → Roster → Market → Prop}
    (law : TurnLaw σ s year assumed granted P) {before behind : List Dynasty}
    {later : List PersonId} (ids : List PersonId) (h : House σ)
    (hids : ∀ id ∈ ids, h.roster.isAlive id = true → id ∈ h.dynasty.family)
    (hsize : (h.passMembers s year ids).2.roster.size ≤ 2 ^ 32)
    (hassumed : ∀ op ∈ h.membersOperations s year ids, assumed op)
    (hP : P (ids ++ later) (before ++ h.dynasty :: behind) h.roster h.market) :
    (∀ op ∈ h.membersOperations s year ids, granted op) ∧
      P later (before ++ (h.passMembers s year ids).2.dynasty :: behind)
        (h.passMembers s year ids).2.roster (h.passMembers s year ids).2.market := by
  induction ids generalizing h with
  | nil => exact ⟨List.forall_mem_nil _, hP⟩
  | cons id rest ih =>
    obtain ⟨hfirst, hlater⟩ := List.forall_mem_append.1 hassumed
    have hmember := hids id List.mem_cons_self
    have hturned := House.turned s year id h
    have hnext : (h.passMember s year id).2.roster.size ≤ 2 ^ 32 :=
      Nat.le_trans (House.continues_passMembers s year rest _).size_le hsize
    have hids' : ∀ x ∈ rest, (h.passMember s year id).2.roster.isAlive x = true →
        x ∈ (h.passMember s year id).2.dynasty.family :=
      fun x hx => hturned.stays (hids x (List.mem_cons_of_mem id hx))
    obtain ⟨hgranted, hrest⟩ :=
      ih (h.passMember s year id).2 hids' hsize hlater (law.turn hmember hnext hfirst hP)
    exact ⟨List.forall_mem_append.2 ⟨law.grants hmember hP, hgranted⟩, hrest⟩

end Annals
