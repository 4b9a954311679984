import Annals.Proofs.Calendar.Shift
import Annals.Proofs.Family.Dates
import Annals.Proofs.Family.Throne
/-!
# Families in another calendar

Family life goes by ages: who dies, who may marry whom, who can bear a child and who can take the
throne. An age is a difference of years, so it is the same in every calendar. Only the line of heirs
compares years of birth, and for that they must be years of both calendars.

* `Person.shift`, `Roster.shift`, `House.shift`: persons and houses as another calendar dates them.
* `Market.update_shift`: the market.
* `Roster.heir?_shift`: the heir.
* `House.passMember_shift`, `House.passYear_shift`: the turn of a member and the year of a dynasty.
* `Dynasty.foundAll_shift`: the foundings.
-/

namespace Annals

/-! ## Persons -/

namespace Person

/-- A person as another calendar dates births and deaths. -/
def shift (k : Int) (p : Person) : Person :=
  { p with birthYear := p.birthYear.shift k, deathYear := p.deathYear.map (Year.shift k) }

variable (k : Int) (p : Person)

@[simp] theorem birthYear_shift : (p.shift k).birthYear = p.birthYear.shift k := rfl

@[simp] theorem isAlive_shift : (p.shift k).isAlive = p.isAlive := Option.isNone_map ..

/-- An age does not depend on the calendar. -/
@[simp] theorem age_shift (year : Year) : (p.shift k).age (year.shift k) = p.age year := by
  have hdeath : (p.deathYear.map (Year.shift k)).getD (year.shift k) =
      (p.deathYear.getD year).shift k := by
    cases p.deathYear <;> rfl
  unfold age
  show (p.deathYear.map (Year.shift k)).getD (year.shift k) - p.birthYear.shift k = _
  rw [hdeath, Year.shift_sub_shift]

end Person

/-! ## Rosters -/

namespace Roster

/-- An arrival as another calendar dates the birth. -/
def Arrival.shift (k : Int) (a : Arrival) : Arrival := { a with birthYear := a.birthYear.shift k }

/-- A roster as another calendar dates births and deaths. -/
def shift (k : Int) (r : Roster) : Roster := { persons := r.persons.map (Person.shift k) }

variable (k : Int) (r : Roster)

@[simp] theorem toList_shift : (r.shift k).toList = r.toList.map (Person.shift k) :=
  Array.toList_map

@[simp] theorem size_shift : (r.shift k).size = r.size := Array.size_map

@[simp] theorem nextId_shift : (r.shift k).nextId = r.nextId := by
  unfold nextId
  rw [size_shift]

@[simp] theorem get?_shift (id : PersonId) :
    (r.shift k).get? id = (r.get? id).map (Person.shift k) :=
  Array.getElem?_map

@[simp] theorem isAlive_shift (id : PersonId) : (r.shift k).isAlive id = r.isAlive id := by
  unfold isAlive
  rw [get?_shift, Option.any_map]
  exact congrArg (Option.any · _) (funext (Person.isAlive_shift k))

@[simp] theorem nameOf_shift (id : PersonId) : (r.shift k).nameOf id = r.nameOf id := by
  unfold nameOf
  rw [get?_shift]
  cases r.get? id <;> rfl

@[simp] theorem livingPartner?_shift (id : PersonId) :
    (r.shift k).livingPartner? id = r.livingPartner? id := by
  have halive : (r.shift k).isAlive = r.isAlive := funext (isAlive_shift k r)
  unfold livingPartner?
  rw [get?_shift, halive]
  cases r.get? id <;> rfl

/-! ### Changes -/

theorem update_shift {f f' : Person → Person} (hf : ∀ p, f' (p.shift k) = (f p).shift k)
    (id : PersonId) : (r.shift k).update id f' = (r.update id f).shift k := by
  refine congrArg Roster.mk (Array.ext_getElem? fun i => ?_)
  show ((r.persons.map (Person.shift k)).modify _ f')[i]? = _
  unfold update
  rw [Array.getElem?_modify, Array.getElem?_map, Array.getElem?_map, Array.getElem?_modify]
  split
  · rw [Option.map_map, Option.map_map]
    exact congrArg (Option.map · _) (funext hf)
  · rfl

theorem spawn_shift (a : Arrival) :
    (r.shift k).spawn (a.shift k) = ((r.spawn a).1, (r.spawn a).2.shift k) := by
  have hperson : (a.shift k).person r.nextId = (a.person r.nextId).shift k := rfl
  unfold spawn
  rw [nextId_shift, hperson]
  refine Prod.ext rfl (congrArg Roster.mk ?_)
  exact Array.map_push.symm

theorem marry_shift (a b : PersonId) : (r.shift k).marry a b = (r.marry a b).shift k := by
  have hpartner : ∀ (c : PersonId) (p : Person),
      addPartner c (p.shift k) = (addPartner c p).shift k := by
    intro c p
    unfold addPartner
    show (if p.partners.contains c then _ else _) = _
    split <;> rfl
  unfold marry
  rw [update_shift k r (hpartner b), update_shift k _ (hpartner a)]

theorem addChild_shift (mother father child : PersonId) :
    (r.shift k).addChild mother father child = (r.addChild mother father child).shift k := by
  rw [addChild_eq, addChild_eq,
    update_shift k r (f := withChild child) (fun _ => rfl),
    update_shift k _ (f := withChild child) (fun _ => rfl),
    update_shift k _ (f := withParents mother father) (fun _ => rfl)]

theorem weaken_shift (id : PersonId) (loss : Int32) :
    (r.shift k).weaken id loss = (r.weaken id loss).shift k :=
  update_shift k r (f := weakened loss) (fun _ => rfl) id

theorem crown_shift (id : PersonId) : (r.shift k).crown id = (r.crown id).shift k :=
  update_shift k r (f := withCrown) (fun _ => rfl) id

theorem withCouple_shift (king queen : Arrival) :
    (r.shift k).withCouple (king.shift k) (queen.shift k) = (r.withCouple king queen).shift k := by
  unfold withCouple
  rw [spawn_shift, spawn_shift, marry_shift, nextId_shift, nextId_shift, crown_shift]

theorem kill_shift (id : PersonId) (year : Year) :
    (r.shift k).kill id (year.shift k) = (r.kill id year).shift k := by
  refine update_shift k r (f := deceased year) (fun p => ?_) id
  unfold Person.shift deceased
  cases p.deathYear <;> rfl

/-! ### Heirs -/

theorem isGrown_shift (year : Year) (p : Person) :
    isGrown (year.shift k) (p.shift k) = isGrown year p := by
  unfold isGrown
  rw [Person.isAlive_shift, Person.age_shift]

theorem grown_shift (year : Year) (ids : List PersonId) :
    (r.shift k).grown (year.shift k) ids = (r.grown year ids).map (Person.shift k) := by
  unfold grown
  rw [show (r.shift k).get? = fun id => (r.get? id).map (Person.shift k) from
    funext (get?_shift k r), ← List.map_filterMap, List.filter_map]
  exact congrArg (List.map _) (List.filter_congr fun p _ => isGrown_shift k year p)

theorem siblingIds_shift (p : Person) (id : PersonId) :
    (r.shift k).siblingIds (p.shift k) id = r.siblingIds p id := by
  unfold siblingIds
  rw [show (p.shift k).parents = p.parents from rfl]
  cases p.parents with
  | none => rfl
  | some couple =>
    obtain ⟨mother, father⟩ := couple
    dsimp only
    rw [show (r.shift k).get? = fun id => (r.get? id).map (Person.shift k) from
      funext (get?_shift k r), ← List.map_filterMap, List.flatMap_map]
    rfl

variable {k r}

/-- The line of heirs is the same when years of birth are years of both calendars. -/
theorem goesBefore_shift {p q : Person} (hp : p.birthYear.Moves k) (hq : q.birthYear.Moves k) :
    goesBefore (p.shift k) (q.shift k) = goesBefore p q := by
  have hlt := Year.shift_lt_shift hp hq
  have heq : p.birthYear.shift k = q.birthYear.shift k ↔ p.birthYear = q.birthYear := Year.shift_inj
  unfold goesBefore
  show (decide (p.birthYear.shift k < q.birthYear.shift k) ||
    (decide (p.birthYear.shift k = q.birthYear.shift k) && decide (p.id.index < q.id.index))) = _
  rw [decide_eq_decide.2 hlt, decide_eq_decide.2 heq]

theorem oldest?_shift {ps : List Person} (h : ∀ p ∈ ps, p.birthYear.Moves k) :
    oldest? (ps.map (Person.shift k)) = (oldest? ps).map (Person.shift k) := by
  induction ps with
  | nil => rfl
  | cons p rest ih =>
    obtain ⟨hp, hrest⟩ := List.forall_mem_cons.1 h
    rw [List.map_cons]
    unfold oldest?
    rw [ih hrest]
    cases hfound : oldest? rest with
    | none => rfl
    | some q =>
      have hq := hrest q (oldest?_mem hfound)
      dsimp only [Option.map_some]
      rw [goesBefore_shift hq hp]
      split <;> rfl

/-- The same heir follows a monarch. -/
theorem heir?_shift (h : ∀ y ∈ r.years, y.Moves k) (monarch : PersonId) (year : Year) :
    (r.shift k).heir? monarch (year.shift k) = r.heir? monarch year := by
  have hbirth : ∀ ids, ∀ p ∈ r.grown year ids, p.birthYear.Moves k := by
    intro ids p hp
    obtain ⟨id, -, hget⟩ := List.mem_filterMap.1 (List.mem_filter.1 hp).1
    exact forall_years_iff.1 h p (mem_of_get? hget) _ List.mem_cons_self
  unfold heir?
  rw [get?_shift]
  cases r.get? monarch with
  | none => rfl
  | some p =>
    dsimp only [Option.map_some]
    rw [siblingIds_shift, grown_shift, grown_shift, oldest?_shift (hbirth _),
      oldest?_shift (hbirth _)]
    rw [show (p.shift k).children = p.children from rfl]
    cases oldest? (r.grown year p.children) with
    | some child => rfl
    | none =>
      dsimp only [Option.map_none]
      rw [Option.map_map]
      rfl

end Roster

/-! ## The market -/

namespace Market

variable (k : Int) (m : Market) (year : Year)

theorem expire_shift (r : Roster) : m.expire (r.shift k) = m.expire r := by
  have hstays : stays (r.shift k) = stays r := by
    funext c
    unfold stays
    rw [Roster.get?_shift]
    cases r.get? c.person with
    | none => rfl
    | some p =>
      dsimp only [Option.map_some, Option.any_some]
      rw [Person.isAlive_shift]
      rfl
  unfold expire
  rw [hstays]

/-- Whether two persons suit each other is a matter of their ages. -/
theorem suits_shift (s : MarriageSettings) (seeker p : Person) :
    suits s (seeker.shift k) (year.shift k) (p.shift k) = suits s seeker year p := by
  unfold suits
  rw [Person.isAlive_shift, Person.age_shift, Person.age_shift]
  rfl

theorem suitable_shift (s : MarriageSettings) (seeker : Person) (r : Roster) :
    m.suitable s (seeker.shift k) (year.shift k) (r.shift k) = m.suitable s seeker year r := by
  unfold suitable
  rw [show (fun c : Candidate => (r.shift k).get? c.person) =
      fun c => (r.get? c.person).map (Person.shift k) from
    funext fun c => Roster.get?_shift k r c.person, ← List.map_filterMap, List.filter_map,
    List.map_map]
  exact congrArg (List.map Person.id) (List.filter_congr fun p _ => suits_shift k year s seeker p)

variable {σ : Type} [Dice σ]

theorem findPartner_shift (s : MarriageSettings) (seeker : Person) (r : Roster) (dice : σ) :
    m.findPartner s (seeker.shift k) (year.shift k) (r.shift k) dice =
      m.findPartner s seeker year r dice := by
  unfold findPartner
  rw [suitable_shift]

/-- A newcomer of the same age comes. -/
theorem newcomer_shift (s : FamilySettings) (dice : σ) :
    newcomer s (year.shift k) dice =
      ((newcomer s year dice).1.shift k, (newcomer s year dice).2) := by
  unfold newcomer Roster.Arrival.shift
  simp only [Year.shift_sub]

/-- The year on the market is the same. -/
theorem update_shift (s : FamilySettings) (r : Roster) (dice : σ) :
    m.update s (year.shift k) (r.shift k) dice =
      ((m.update s year r dice).1, (m.update s year r dice).2.1.shift k,
        (m.update s year r dice).2.2) := by
  unfold update
  dsimp only
  rw [expire_shift, newcomer_shift]
  split
  · rfl
  · dsimp only
    rw [Roster.spawn_shift]

end Market

/-! ## Houses -/

/-- A family event as another calendar dates it. -/
def FamilyEvent.shift (k : Int) (e : FamilyEvent) : FamilyEvent :=
  { e with year := e.year.shift k }

namespace House

variable {σ : Type} {k : Int} {year : Year}

/-- A house as another calendar dates births and deaths. -/
def shift (k : Int) (h : House σ) : House σ := { h with roster := h.roster.shift k }

@[simp] theorem roster_shift (h : House σ) : (h.shift k).roster = h.roster.shift k := rfl

@[simp] theorem market_shift (h : House σ) : (h.shift k).market = h.market := rfl

@[simp] theorem dice_shift (h : House σ) : (h.shift k).dice = h.dice := rfl

theorem event_shift (h : House σ) (deed : FamilyDeed) :
    (h.shift k).event (year.shift k) deed = (h.event year deed).shift k := rfl

theorem aged_shift (id : PersonId) (h : House σ) (loss : Int32) (dice : σ) :
    (h.shift k).aged id loss dice = (h.aged id loss dice).shift k := by
  unfold aged
  rw [roster_shift, Roster.weaken_shift]
  rfl

theorem buried_shift (id : PersonId) (h : House σ) :
    (h.shift k).buried (year.shift k) id = (h.buried year id).shift k := by
  unfold buried
  rw [roster_shift, Roster.kill_shift]
  rfl

theorem crowned_shift (heir : PersonId) (h : House σ) :
    (h.shift k).crowned heir = (h.crowned heir).shift k := by
  unfold crowned
  rw [roster_shift, Roster.crown_shift]
  rfl

/-! ### Burials -/

theorem passCrown_of_heir {h : House σ} {old heir : PersonId} {kinship : Kinship}
    (hheir : h.roster.heir? old year = some (heir, kinship)) :
    passCrown year old h =
      (h.event year (.succession ((h.crowned heir).roster.nameOf old)
        ((h.crowned heir).roster.nameOf heir) kinship
        (((h.crowned heir).roster.get? heir).any (·.gender = .male))), h.crowned heir) := by
  unfold passCrown
  rw [hheir]
  rfl

theorem passCrown_of_none {h : House σ} {old : PersonId} (hnone : h.roster.heir? old year = none) :
    passCrown year old h =
      (h.event year (.noSuccessor (h.roster.nameOf old)
        ((h.roster.get? old).any (·.gender = .male))), h.uncrowned) := by
  unfold passCrown
  rw [hnone]
  rfl

/-- The crown passes to the same heir. -/
theorem passCrown_shift {h : House σ} (hr : ∀ y ∈ h.roster.years, y.Moves k) (old : PersonId) :
    passCrown (year.shift k) old (h.shift k) =
      ((passCrown year old h).1.shift k, (passCrown year old h).2.shift k) := by
  have hmale : ∀ (r : Roster) (id : PersonId),
      ((r.shift k).get? id).any (·.gender = .male) = (r.get? id).any (·.gender = .male) := by
    intro r id
    rw [Roster.get?_shift]
    cases r.get? id <;> rfl
  have hheir : (h.shift k).roster.heir? old (year.shift k) = h.roster.heir? old year :=
    Roster.heir?_shift hr old year
  cases hfound : h.roster.heir? old year with
  | none =>
    rw [passCrown_of_none hfound, passCrown_of_none (hheir.trans hfound), roster_shift,
      Roster.nameOf_shift, hmale, event_shift]
    rfl
  | some heir =>
    obtain ⟨heir, kinship⟩ := heir
    rw [passCrown_of_heir hfound, passCrown_of_heir (hheir.trans hfound), crowned_shift,
      roster_shift, Roster.nameOf_shift, Roster.nameOf_shift, hmale, event_shift]

/-- A member is buried alike. -/
theorem bury_shift (hyear : year.Moves k) {h : House σ} (hr : ∀ y ∈ h.roster.years, y.Moves k)
    (id : PersonId) (age : Int32) :
    bury (year.shift k) id age (h.shift k) =
      ((bury year id age h).1.map (FamilyEvent.shift k), (bury year id age h).2.shift k) := by
  have hbury : ∀ (year : Year) (h : House σ), bury year id age h =
      if (h.buried year id).dynasty.monarch = some id then
        ([(h.buried year id).event year (.death ((h.buried year id).roster.nameOf id) age),
          (passCrown year id (h.buried year id)).1], (passCrown year id (h.buried year id)).2)
      else ([(h.buried year id).event year (.death ((h.buried year id).roster.nameOf id) age)],
        h.buried year id) := fun _ _ => rfl
  have hdead : ∀ y ∈ (h.buried year id).roster.years, y.Moves k :=
    Roster.forall_years_kill hr id hyear
  rw [hbury, hbury, buried_shift, passCrown_shift hdead, roster_shift, Roster.nameOf_shift,
    event_shift, show ((h.buried year id).shift k).dynasty = (h.buried year id).dynasty from rfl]
  split <;> rfl

variable [Dice σ]

/-! ### Ageing -/

section Ageing

variable {s : AgeingSettings} {id : PersonId} {h : House σ} {loss : Int32} {dice : σ}
  (hloss : Dice.between s.healthLossMin s.healthLossMax h.dice = (loss, dice))

include hloss

theorem age_of_none (hnone : (h.aged id loss dice).roster.get? id = none) :
    age s year id h = (none, h.aged id loss dice) := by
  change (h.roster.update id fun p => { p with health := p.health - loss }).get? id = _ at hnone
  unfold age
  rw [hloss]
  dsimp only
  rw [hnone]
  rfl

theorem age_of_some {p : Person} (hp : (h.aged id loss dice).roster.get? id = some p)
    {bonus : Int32} {dice' : σ} (hbonus : Dice.between 0 s.maxAgeBonus dice = (bonus, dice')) :
    age s year id h =
      (if p.health ≤ 0 || s.maxBaseAge + bonus < p.age year then some (p.age year) else none,
        h.aged id loss dice') := by
  change (h.roster.update id fun p => { p with health := p.health - loss }).get? id = _ at hp
  unfold age
  rw [hloss]
  dsimp only
  rw [hp]
  dsimp only
  rw [hbonus]
  rfl

end Ageing

/-- A year's loss of health, and death of it or of age, are the same. -/
theorem age_shift (s : AgeingSettings) (id : PersonId) (h : House σ) :
    age s (year.shift k) id (h.shift k) =
      ((age s year id h).1, (age s year id h).2.shift k) := by
  cases hloss : Dice.between s.healthLossMin s.healthLossMax h.dice with
  | mk loss dice =>
    have hget : ((h.shift k).aged id loss dice).roster.get? id =
        ((h.aged id loss dice).roster.get? id).map (Person.shift k) := by
      rw [aged_shift, roster_shift, Roster.get?_shift]
    cases hp : (h.aged id loss dice).roster.get? id with
    | none =>
      rw [hp] at hget
      rw [age_of_none hloss hp, age_of_none (h := h.shift k) hloss hget, aged_shift]
    | some p =>
      rw [hp] at hget
      cases hbonus : Dice.between 0 s.maxAgeBonus dice with
      | mk bonus dice' =>
        rw [age_of_some hloss hp hbonus, age_of_some (h := h.shift k) hloss hget hbonus,
          Person.age_shift, aged_shift]
        rfl

/-! ### Marriages and births -/

theorem tryMarry_shift (s : MarriageSettings) (id : PersonId) (h : House σ) :
    tryMarry s (year.shift k) id (h.shift k) =
      ((tryMarry s year id h).1.map (FamilyEvent.shift k), (tryMarry s year id h).2.shift k) := by
  unfold tryMarry
  rw [roster_shift, dice_shift, Roster.get?_shift]
  cases h.roster.get? id with
  | none => rfl
  | some p =>
    dsimp only [Option.map_some]
    rw [Person.age_shift, Roster.livingPartner?_shift]
    split
    · rfl
    · split
      · rfl
      · rw [market_shift, Market.findPartner_shift]
        rcases h.market.findPartner s p year h.roster (Dice.roll h.dice).2 with ⟨partner?, dice⟩
        cases partner? with
        | none => rfl
        | some partner =>
          dsimp only
          rw [Roster.marry_shift, Roster.nameOf_shift, Roster.nameOf_shift]
          rfl

theorem newborn_shift (s : FamilySettings) (mother : Person) (dice : σ) :
    newborn s (year.shift k) (mother.shift k) dice =
      ((newborn s year mother dice).1.shift k, (newborn s year mother dice).2) := rfl

theorem tryBirth_shift (s : FamilySettings) (id : PersonId) (h : House σ) :
    tryBirth s (year.shift k) id (h.shift k) =
      ((tryBirth s year id h).1.map (FamilyEvent.shift k), (tryBirth s year id h).2.shift k) := by
  have hfertile : ∀ p : Person, isFertile s.childbirth (year.shift k) (p.shift k) =
      isFertile s.childbirth year p := by
    intro p
    unfold isFertile
    rw [Person.age_shift]
    rfl
  unfold tryBirth
  rw [roster_shift, dice_shift, Roster.get?_shift]
  cases h.roster.get? id with
  | none => rfl
  | some p =>
    dsimp only [Option.map_some]
    rw [hfertile, Roster.livingPartner?_shift]
    split
    · rfl
    · cases h.roster.livingPartner? id with
      | none => rfl
      | some father =>
        dsimp only
        split
        · rfl
        · rw [newborn_shift, Roster.spawn_shift, Roster.addChild_shift]
          dsimp only
          rw [Roster.nameOf_shift, Roster.nameOf_shift, Roster.nameOf_shift]
          rfl

/-! ### The year -/

/-- The turn of a member is the same. -/
theorem passMember_shift (s : FamilySettings) (hyear : year.Moves k) {h : House σ}
    (hr : ∀ y ∈ h.roster.years, y.Moves k) (id : PersonId) :
    passMember s (year.shift k) id (h.shift k) =
      ((passMember s year id h).1.map (FamilyEvent.shift k),
        (passMember s year id h).2.shift k) := by
  have haged : ∀ y ∈ (age s.ageing year id h).2.roster.years, y.Moves k := by
    have hroster : ∃ loss, (age s.ageing year id h).2.roster = h.roster.weaken id loss := by
      unfold age
      dsimp only
      split <;> exact ⟨_, rfl⟩
    obtain ⟨loss, hloss⟩ := hroster
    rw [hloss]
    exact Roster.forall_years_update (f := Roster.weakened loss) (fun _ hp => hp) hr id
  unfold passMember
  rw [roster_shift, Roster.isAlive_shift, age_shift]
  split
  · rfl
  · generalize age s.ageing year id h = aged at haged ⊢
    obtain ⟨death, next⟩ := aged
    cases death with
    | some age => exact bury_shift hyear haged id age
    | none =>
      dsimp only
      rw [tryMarry_shift]
      rcases tryMarry s.marriage year id next with ⟨marriage, next⟩
      cases marriage with
      | some marriage => rfl
      | none =>
        dsimp only [Option.map_none]
        rw [tryBirth_shift, Option.toList_map]

/-- So are the turns of all members, one after the other. -/
theorem passMembers_shift (s : FamilySettings) (hyear : year.Moves k) (ids : List PersonId)
    {h : House σ} (hr : ∀ y ∈ h.roster.years, y.Moves k) :
    passMembers s (year.shift k) ids (h.shift k) =
      ((passMembers s year ids h).1.map (FamilyEvent.shift k),
        (passMembers s year ids h).2.shift k) := by
  induction ids generalizing h with
  | nil => rfl
  | cons id rest ih =>
    have hnext := (turned s year id h).forall_years hyear hr
    unfold passMembers
    rw [passMember_shift s hyear hr]
    dsimp only
    rw [ih hnext, List.map_append]

/-- The year of a dynasty is the same in the other calendar. -/
theorem passYear_shift (s : FamilySettings) (hyear : year.Moves k) {h : House σ}
    (hr : ∀ y ∈ h.roster.years, y.Moves k) :
    passYear s (year.shift k) (h.shift k) =
      ((passYear s year h).1.map (FamilyEvent.shift k), (passYear s year h).2.shift k) :=
  passMembers_shift s hyear h.dynasty.family hr

end House

/-! ## Foundings -/

namespace Dynasty

variable {σ : Type} [Dice σ] {k : Int}

/-- Somebody of a given age who founds a dynasty. -/
def founderOfAge (year : Year) (health : Int32) (name : String) (gender : Gender) (age : Int32) :
    Roster.Arrival :=
  { name, gender, birthYear := year - age, faction := royalFaction, region := royalRegion, health }

theorem founderOfAge_shift (year : Year) (health : Int32) (name : String) (gender : Gender)
    (age : Int32) :
    founderOfAge (year.shift k) health name gender age =
      (founderOfAge year health name gender age).shift k := by
  unfold founderOfAge
  rw [← Year.shift_sub]
  rfl

/-- The ages are drawn before the names, and the king is the first to be entered. -/
theorem found_drawn (name : String) (year : Year) (health : Int32) (r : Roster) (dice : σ) :
    found name year health r dice =
      let kingAge := Dice.between founderMinAge founderMaxAge dice
      let queenAge := Dice.between founderMinAge founderMaxAge kingAge.2
      let kingName := Dice.givenName .male queenAge.2
      let queenName := Dice.givenName .female kingName.2
      let king := founderOfAge year health kingName.1 .male kingAge.1
      let queen := founderOfAge year health queenName.1 .female queenAge.1
      (.ofCouple name r.nextId (r.spawn king).2.nextId, r.withCouple king queen, queenName.2) :=
  rfl

/-- Founders of the same ages found the same dynasty. -/
theorem found_shift (name : String) (year : Year) (health : Int32) (r : Roster) (dice : σ) :
    found name (year.shift k) health (r.shift k) dice =
      ((found name year health r dice).1, (found name year health r dice).2.1.shift k,
        (found name year health r dice).2.2) := by
  rw [found_drawn, found_drawn]
  dsimp only
  rw [founderOfAge_shift, founderOfAge_shift, Roster.withCouple_shift, Roster.spawn_shift,
    Roster.nextId_shift, Roster.nextId_shift]

theorem foundAll_shift (year : Year) (health : Int32) (names : List String) (r : Roster)
    (dice : σ) :
    foundAll (year.shift k) health names (r.shift k) dice =
      ((foundAll year health names r dice).1, (foundAll year health names r dice).2.1.shift k,
        (foundAll year health names r dice).2.2) := by
  induction names generalizing r dice with
  | nil => rfl
  | cons name rest ih =>
    unfold foundAll
    rw [found_shift]
    dsimp only
    rw [ih]

end Dynasty

end Annals
