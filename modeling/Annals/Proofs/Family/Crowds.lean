import Annals.Proofs.Dice.Certain
import Annals.Proofs.Family.Census
import Annals.Proofs.Family.Dates
import Annals.Proofs.Family.Vigour
/-!
# Crowds

An id is a word of 32 bits, and nothing keeps a roster from growing beyond the words. When every id
has been given out, the next one is that of an earlier person: dynasties get the founders of other
dynasties, and a newborn is taken for somebody else.

* `Dynasty.Couples`, `Dynasty.couples_foundAll`: the founders of each dynasty, by its place.
* `Dynasty.founders_repeat`: dynasties that are `2 ^ 31` places apart have the same founders.
* `House.Hale`, `House.passMember_of_hale`: the turn of a member who is sure to live and is married.
* `House.year_of_couple`: in the year of such a couple a child is born, with the next id.
* `FamilySettings.placid`, `House.birth_of_couple`: settings under which every founding couple has
  a child at once.
* `House.Recent`, `House.inRange_passMembers`: under these settings nothing wraps around.
-/

namespace Annals

namespace Roster

variable {r : Roster} {x : PersonId} {p : Person}

/-- Who is in a roster without obituaries lives. -/
theorem isAlive_of_obituaries (h : r.obituaries = []) (hp : r.get? x = some p) :
    p.isAlive = true := by
  have hnone := List.filterMap_eq_nil_iff.1 h p (Array.mem_toList_iff.2 (Array.mem_of_getElem? hp))
  unfold Person.obituary? at hnone
  exact Option.isNone_iff_eq_none.2 (Option.map_eq_none_iff.1 hnone)

/-- Every word below the size is somebody's id. -/
theorem exists_of_lt_size (h : x.index.toNat < r.size) : ∃ p, r.get? x = some p :=
  ⟨_, Array.getElem?_eq_getElem h⟩

/-- Whoever is born has parents, even if the id has been somebody else's before. -/
theorem parentsOf_bear_nextId (r : Roster) (a : Arrival) (mother father : PersonId) :
    (r.bear a mother father).parentsOf r.nextId = some (mother, father) := by
  obtain ⟨p, hp⟩ := r.exists_nextId a
  obtain ⟨q, hq, -⟩ := ((Continues.update (becomes_withChild r.nextId) (r.spawn a).2 mother).trans
    (.update (becomes_withChild r.nextId) _ father)).stays hp
  unfold bear parentsOf
  rw [addChild_eq, get?_update_self, hq]
  rfl

/-- A birth takes nobody's parents away. -/
theorem isSome_parentsOf_bear (a : Arrival) (mother father : PersonId)
    (h : (r.parentsOf x).isSome = true) :
    ((r.bear a mother father).parentsOf x).isSome = true := by
  -- Either the person is taken for the newborn and gets new parents, or is left alone.
  by_cases hx : x = r.nextId
  · rw [hx, parentsOf_bear_nextId]
    rfl
  · have hparent : ∀ (r' : Roster) (id : PersonId),
        (r'.update id (withChild r.nextId)).parentsOf x = r'.parentsOf x :=
      fun r' id => update_frame (f := withChild r.nextId) (fun o => o.bind Person.parents)
        (fun _ => rfl) r' id x
    have hothers : (r.bear a mother father).parentsOf x =
        (((r.spawn a).2.update mother (withChild r.nextId)).update father
          (withChild r.nextId)).parentsOf x :=
      congrArg (fun o => o.bind Person.parents) (get?_update_ne hx _ _)
    rw [hothers, hparent, hparent, (SameLinks.spawn r a).parents]
    exact h

end Roster

namespace Dynasty

/-! ## Founders -/

/-- The dynasties and the roster after a number of foundings. -/
structure Couples (ds : List Dynasty) (r : Roster) : Prop where
  size : r.size = 2 * ds.length
  numbered : r.Numbered
  obituaries : r.obituaries = []
  place : ∀ {i : Nat} {d : Dynasty}, ds[i]? = some d →
    d = .ofCouple d.name ⟨.ofNat (2 * i)⟩ ⟨.ofNat (2 * i + 1)⟩
  /-- As long as ids are left, the founders are a couple. -/
  wedded : r.size ≤ 2 ^ 32 → r.Genealogy ∧ ∀ d ∈ ds,
    r.genderOf d.founder = some .male ∧ d.foundingQueen ∈ r.partnersOf d.founder

variable {ds : List Dynasty} {r : Roster}

theorem couples_empty : Couples [] .empty where
  size := rfl
  numbered := Roster.numbered_empty
  obituaries := rfl
  place := fun hd => by cases hd
  wedded := fun _ => ⟨Roster.genealogy_empty, List.forall_mem_nil _⟩

theorem Couples.withCouple (h : Couples ds r) (name : String) {king queen : Roster.Arrival}
    (hking : king.gender = .male) (hqueen : queen.gender = .female) :
    Couples (ds ++ [.ofCouple name r.nextId (r.spawn king).2.nextId])
      (r.withCouple king queen) where
  size := by
    rw [Roster.size_withCouple, h.size, List.length_append, List.length_singleton, Nat.mul_add]
  numbered := h.numbered.withCouple king queen
  obituaries := (Roster.obituaries_withCouple ..).trans h.obituaries
  place := by
    intro i d hd
    -- Dynasties keep their places, and the new one comes last.
    rcases Nat.lt_or_ge i ds.length with hbefore | hlast
    · rw [List.getElem?_append_left hbefore] at hd
      exact h.place hd
    · rw [List.getElem?_append_right hlast] at hd
      obtain ⟨hi, hd⟩ := List.getElem?_eq_some_iff.1 hd
      have hlength : i = ds.length := by
        rw [List.length_singleton] at hi
        omega
      have hnext : r.nextId = ⟨.ofNat (2 * i)⟩ := by
        unfold Roster.nextId
        rw [h.size, hlength]
      have hnext' : (r.spawn king).2.nextId = ⟨.ofNat (2 * i + 1)⟩ := by
        unfold Roster.nextId
        rw [Roster.size_spawn, h.size, hlength]
      rw [← hd, List.getElem_singleton, hnext, hnext']
      rfl
  wedded := by
    intro hsize
    obtain ⟨hfirst, hsecond⟩ := Roster.room_of_withCouple hsize
    have hlater := Roster.Continues.withCouple r king queen
    obtain ⟨hr, hold⟩ := h.wedded (Nat.le_of_lt hfirst)
    refine ⟨hr.withCouple hking hqueen hsize, ?_⟩
    have hspawned := (hr.spawn king).spawn queen
    have hcouple := Roster.marriageable_newcomers hking hqueen hfirst hsecond
    -- The couple is noted in front of everything that the roster has held before.
    have hpartners : ∀ x y, y ∈ (r.withCouple king queen).partnersOf x ↔
        y ∈ ((r.spawn king).2.spawn queen).2.partnersOf x ∨
          (x = r.nextId ∧ y = (r.spawn king).2.nextId) ∨
          (x = (r.spawn king).2.nextId ∧ y = r.nextId) := by
      intro x y
      rw [← hspawned.mem_partnersOf_marry hcouple, Roster.withCouple,
        (Roster.SameLinks.crown _ _).partners]
    refine List.forall_mem_append.2 ⟨fun d hd => ?_, List.forall_mem_singleton.2 ⟨?_, ?_⟩⟩
    · obtain ⟨hmale, hwife⟩ := hold d hd
      refine ⟨hlater.genderOf hmale, (hpartners _ _).2 (.inl ?_)⟩
      rw [(Roster.SameLinks.spawn _ queen).partners, (Roster.SameLinks.spawn r king).partners]
      exact hwife
    · have hnew := Roster.get?_spawn_nextId hfirst king
      have hmale := (Roster.genderOf_of_get? hnew).trans (congrArg some hking)
      have hrest := (Roster.Continues.spawn (r.spawn king).2 queen).trans
        ((Roster.Continues.marry _ r.nextId (r.spawn king).2.nextId).trans (.crown _ r.nextId))
      exact hrest.genderOf hmale
    · exact (hpartners _ _).2 (.inr (.inl ⟨rfl, rfl⟩))

variable {σ : Type} [Dice σ]

theorem couples_foundAll (year : Year) (health : Int32) (names : List String) (dice : σ) :
    Couples (foundAll year health names .empty dice).1
      (foundAll year health names .empty dice).2.1 :=
  foundAll_induction (fun name _ _ hking hqueen h => h.withCouple name hking hqueen) year health
    names dice couples_empty

/-- Ids that are `2 ^ 32` apart are the same word. -/
theorem founders_repeat (h : Couples ds r) {i : Nat} {d e : Dynasty} (hd : ds[i]? = some d)
    (he : ds[i + 2 ^ 31]? = some e) : e = { d with name := e.name } := by
  -- Twice `2 ^ 31` places are a whole turn of the words.
  have hking : UInt32.ofNat (2 * (i + 2 ^ 31)) = UInt32.ofNat (2 * i) := by
    refine UInt32.toNat_inj.1 ?_
    rw [UInt32.toNat_ofNat', UInt32.toNat_ofNat']
    omega
  have hqueen : UInt32.ofNat (2 * (i + 2 ^ 31) + 1) = UInt32.ofNat (2 * i + 1) := by
    refine UInt32.toNat_inj.1 ?_
    rw [UInt32.toNat_ofNat', UInt32.toNat_ofNat']
    omega
  have hfirst := h.place hd
  have hlater := h.place he
  rw [hking, hqueen] at hlater
  rw [hfirst, hlater]
  rfl

end Dynasty

/-! ## The year of a couple -/

namespace Roster

variable {r : Roster}

theorem livingPartner?_weaken (r : Roster) (id : PersonId) (loss : Int32) (x : PersonId) :
    (r.weaken id loss).livingPartner? x = r.livingPartner? x := by
  have hlife : (r.weaken id loss).isAlive = r.isAlive := funext (isAlive_weaken r id loss)
  unfold livingPartner?
  rw [hlife]
  exact update_frame (f := weakened loss)
    (fun o => o.bind fun p => p.partners.reverse.find? r.isAlive) (fun _ => rfl) r id x

/-- Among partners of whom one lives there is a living one. -/
theorem isSome_livingPartner? {a b : PersonId} (hb : b ∈ r.partnersOf a)
    (halive : r.isAlive b = true) : (r.livingPartner? a).isSome = true := by
  rw [Option.isSome_iff_ne_none]
  intro hnone
  rw [widowed_of_livingPartner? hnone hb] at halive
  cases halive

end Roster

namespace House

/-- Whatever the dice, the person survives the year. -/
structure Hale (σ : Type) [Dice σ] (s : AgeingSettings) (year : Year) (p : Person) : Prop where
  healthy : ∀ dice : σ, 0 < p.health - drawnLoss s dice
  young : ∀ dice : σ, p.age year ≤ s.maxBaseAge + drawnBonus s dice

variable {σ : Type} [Dice σ] {s : FamilySettings} {year : Year} {id : PersonId} {p : Person}
  {h : House σ}

theorem age_of_hale (hget : h.roster.get? id = some p) (hhale : Hale σ s.ageing year p) :
    ∃ loss dice, age s.ageing year id h = (none, h.aged id loss dice) := by
  unfold age
  dsimp only
  rw [Roster.get?_update_self, hget]
  dsimp only [Option.map_some]
  split
  case isTrue hdies =>
    rw [Bool.or_eq_true, decide_eq_true_eq, decide_eq_true_eq] at hdies
    rcases hdies with hill | hold
    · exact absurd hill (Int32.not_le.2 (hhale.healthy h.dice))
    · exact absurd hold (Int32.not_lt.2 (hhale.young _))
  case isFalse => exact ⟨_, _, rfl⟩

/-- The turn of somebody who is married and sure to survive can only bring a birth. -/
theorem passMember_of_hale (hget : h.roster.get? id = some p) (halive : p.isAlive = true)
    (hhale : Hale σ s.ageing year p) (hmarried : (h.roster.livingPartner? id).isSome = true) :
    ∃ loss dice, passMember s year id h =
      ((tryBirth s year id (h.aged id loss dice)).1.toList,
        (tryBirth s year id (h.aged id loss dice)).2) := by
  have hliving : h.roster.isAlive id = true := (Roster.isAlive_of_get? hget).trans halive
  obtain ⟨loss, dice, hage⟩ := age_of_hale hget hhale
  have hsingle : tryMarry s.marriage year id (h.aged id loss dice) =
      (none, h.aged id loss dice) := by
    have hmarried' : ((h.aged id loss dice).roster.livingPartner? id).isSome = true := by
      rw [← hmarried]
      exact congrArg Option.isSome (Roster.livingPartner?_weaken h.roster id loss id)
    unfold tryMarry
    rw [get?_aged hget]
    dsimp only
    rw [hmarried', Bool.or_true, if_pos rfl]
  refine ⟨loss, dice, ?_⟩
  unfold passMember
  rw [hliving, if_neg (by decide), hage]
  dsimp only
  rw [hsingle]

theorem tryBirth_of_male (hget : h.roster.get? id = some p) (hmale : p.gender = .male) :
    tryBirth s year id h = (none, h) := by
  have hbarren : isFertile s.childbirth year p = false := by
    unfold isFertile
    rw [hmale]
    rfl
  unfold tryBirth
  rw [hget]
  dsimp only
  rw [hbarren]
  rfl

/-- A fertile woman with a living partner gives birth if births are certain. -/
theorem tryBirth_of_certain {father : PersonId} (hget : h.roster.get? id = some p)
    (hfertile : isFertile s.childbirth year p = true)
    (hfather : h.roster.livingPartner? id = some father) (hchance : 1 ≤ s.childbirth.chance) :
    ∃ (event : FamilyEvent) (drawn dice : σ), tryBirth s year id h =
      (some event, h.withNewborn (newborn s year p drawn).1 id father dice) := by
  unfold tryBirth
  rw [hget]
  dsimp only
  rw [hfertile, hfather]
  dsimp only
  rw [Dice.not_reaches_of_one_le hchance]
  exact ⟨_, _, _, rfl⟩

/-- In the year of a couple, of which both are sure to survive and the woman is fertile, a child is
born if births are certain. Until then nobody has joined or left, and no id has been given out. -/
theorem year_of_couple {king queen : PersonId} {q : Person}
    (hfamily : h.dynasty.family = [king, queen]) (hr : h.roster.Genealogy)
    (hpartners : queen ∈ h.roster.partnersOf king)
    (hking : h.roster.get? king = some p) (hqueen : h.roster.get? queen = some q)
    (hmale : p.gender = .male) (hfertile : isFertile s.childbirth year q = true)
    (hpalive : p.isAlive = true) (hqalive : q.isAlive = true)
    (hphale : Hale σ s.ageing year p) (hqhale : Hale σ s.ageing year q)
    (hchance : 1 ≤ s.childbirth.chance) :
    ∃ (before : House σ) (arrival : Roster.Arrival) (father : PersonId) (dice : σ),
      (h.passYear s year).2 = before.withNewborn arrival queen father dice ∧
      before.dynasty = h.dynasty ∧ h.roster.Continues before.roster ∧
      before.roster.size = h.roster.size := by
  have hne : queen ≠ king := (hr.ne_of_mem hpartners).symm
  have hmarried := Roster.isSome_livingPartner? hpartners
    ((Roster.isAlive_of_get? hqueen).trans hqalive)
  obtain ⟨loss, dice, hfirst⟩ := passMember_of_hale hking hpalive hphale hmarried
  rw [tryBirth_of_male (get?_aged hking loss dice) hmale] at hfirst
  -- The queen's turn begins with the roster in which the king has aged.
  have hqueen' : (h.aged king loss dice).roster.get? queen = some q :=
    (Roster.get?_update_ne hne h.roster (Roster.weakened loss)).trans hqueen
  obtain ⟨father, hfather⟩ : ∃ father, h.roster.livingPartner? queen = some father :=
    Option.isSome_iff_exists.1 (Roster.isSome_livingPartner? (hr.symmetric hpartners)
      ((Roster.isAlive_of_get? hking).trans hpalive))
  have hfather' : (h.aged king loss dice).roster.livingPartner? queen = some father :=
    (Roster.livingPartner?_weaken h.roster king loss queen).trans hfather
  obtain ⟨loss', dice', hsecond⟩ :=
    passMember_of_hale hqueen' hqalive hqhale (Option.isSome_of_eq_some hfather')
  have hfather'' : ((h.aged king loss dice).aged queen loss' dice').roster.livingPartner? queen =
      some father := (Roster.livingPartner?_weaken _ queen loss' queen).trans hfather'
  obtain ⟨event, drawn, dice'', hborn⟩ :=
    tryBirth_of_certain (get?_aged hqueen' loss' dice') hfertile hfather'' hchance
  rw [hborn] at hsecond
  refine ⟨(h.aged king loss dice).aged queen loss' dice',
    (newborn s year (Roster.weakened loss' q) drawn).1, father, dice'', ?_, rfl, ?_, ?_⟩
  · unfold passYear
    rw [hfamily]
    unfold passMembers
    rw [hfirst]
    unfold passMembers
    dsimp only
    rw [hsecond]
    rfl
  · exact (Roster.Continues.weaken h.roster king loss).trans (.weaken _ queen loss')
  · exact (Roster.size_update ..).trans (Roster.size_update ..)

/-- Whoever has parents keeps having some. -/
theorem Turned.isSome_parentsOf {events : List FamilyEvent} {h' : House σ}
    (hturned : Turned s year id h events h') {x : PersonId}
    (hx : (h.roster.parentsOf x).isSome = true) : (h'.roster.parentsOf x).isSome = true := by
  cases hturned with
  | gone hdead => exact hx
  | @aged p loss dice _ _ hget halive hfared =>
    rw [← (Roster.SameLinks.weaken h.roster id loss).parents] at hx
    have hburied := hx
    rw [← (Roster.SameLinks.kill (h.roster.weaken id loss) id year).parents] at hburied
    cases hfared with
    | quiet dice => exact hx
    | died hother => exact hburied
    | @succeeded isKing heir kinship hmonarch hheir =>
      rw [← (Roster.SameLinks.crown _ heir).parents] at hburied
      exact hburied
    | ended isKing hmonarch hheir => exact hburied
    | @married partner dice hgrown hsingle hpartner =>
      rw [← Roster.parentsOf_marry _ id partner] at hx
      exact hx
    | bore drawn dice hfertile hfather arrival harrival =>
      exact Roster.isSome_parentsOf_bear arrival id _ hx

theorem isSome_parentsOf_passMembers (s : FamilySettings) (year : Year) (ids : List PersonId)
    {x : PersonId} (hx : (h.roster.parentsOf x).isSome = true) :
    ((h.passMembers s year ids).2.roster.parentsOf x).isSome = true := by
  induction ids generalizing h with
  | nil => exact hx
  | cons id rest ih => exact ih ((turned s year id h).isSome_parentsOf hx)

end House

/-! ## Births without a new id -/

/-- Settings without illness and chance: nobody loses health, no outsider comes to the market, and
every married woman above an age bears a child each year. -/
def FamilySettings.placid (minAge : Int32) : FamilySettings where
  ageing := { healthLossMax := 0, maxAgeBonus := 0 }
  marriage := { newCandidateChance := 0 }
  childbirth := { minAge, chance := 1 }

namespace House

variable {σ : Type} [Dice σ] {year : Year} {minAge : Int32} {p : Person}

theorem drawnLoss_placid (minAge : Int32) (dice : σ) :
    drawnLoss (FamilySettings.placid minAge).ageing dice = 0 := by
  obtain ⟨hlow, hhigh⟩ := Dice.between_mem (Int32.le_refl 0) dice
  exact Int32.toInt_inj.1 (Int.le_antisymm hhigh hlow)

theorem drawnBonus_placid (minAge : Int32) (dice : σ) :
    drawnBonus (FamilySettings.placid minAge).ageing dice = 0 := drawnLoss_placid minAge dice

/-- Under these settings a founder survives the year of the founding. -/
theorem hale_of_founded {r : Roster} (hr : r.Founded year) {x : PersonId}
    (hp : r.get? x = some p) (halive : p.isAlive = true) :
    Hale σ (FamilySettings.placid minAge).ageing year p := by
  obtain ⟨hyoung, hold, hstrong⟩ := hr.persons hp
  constructor
  case healthy =>
    intro dice
    rw [drawnLoss_placid, Int32.sub_zero, Int32.lt_iff_toInt_lt, hstrong]
    decide
  case young =>
    intro dice
    rw [drawnBonus_placid, Int32.add_zero, Int32.le_iff_toInt_le,
      Person.toInt_age halive (by omega) (by omega)]
    show _ ≤ (80 : Int32).toInt
    exact Int.le_trans hold (by decide)

/-- Under these settings a woman who is a founder is fertile if she is above the age. -/
theorem isFertile_of_founded {r : Roster} (hr : r.Founded year) {x : PersonId}
    (hp : r.get? x = some p) (halive : p.isAlive = true) (hfemale : p.gender = .female)
    (hage : minAge.toInt < year.toInt - p.birthYear.toInt) :
    isFertile (FamilySettings.placid minAge).childbirth year p = true := by
  obtain ⟨hyoung, hold, -⟩ := hr.persons hp
  have hexact := Person.toInt_age halive (show 0 ≤ year.toInt - p.birthYear.toInt by omega)
    (by omega)
  have habove : minAge < p.age year := by
    rw [Int32.lt_iff_toInt_lt, hexact]
    exact hage
  have hbelow : p.age year < 45 := by
    rw [Int32.lt_iff_toInt_lt, hexact]
    exact Int.lt_of_le_of_lt hold (by decide)
  unfold isFertile
  simp only [hfemale, Bool.and_eq_true, decide_eq_true_eq]
  exact ⟨⟨trivial, habove⟩, hbelow⟩

/-- In the year of the founding a couple has a child. When all ids have been given out, it has the
id of the first founder. -/
theorem birth_of_couple (minAge : Int32) {ds : List Dynasty} {r : Roster}
    (hc : Dynasty.Couples ds r) (hfounded : r.Founded year) (hfull : r.size = 2 ^ 32)
    (h : House σ) (hd : h.dynasty ∈ ds)
    (hr : h.roster.Genealogy) (hlinks : r.SameLinks h.roster) (hsize : h.roster.size = r.size)
    (hsame : ∀ x ∈ h.dynasty.family, h.roster.get? x = r.get? x)
    (hage : ∀ q, r.get? h.dynasty.foundingQueen = some q →
      minAge.toInt < year.toInt - q.birthYear.toInt) :
    ∃ (before : House σ) (arrival : Roster.Arrival) (father : PersonId) (dice : σ),
      (h.passYear (.placid minAge) year).2 =
        before.withNewborn arrival h.dynasty.foundingQueen father dice ∧
      before.dynasty = h.dynasty ∧ h.roster.Continues before.roster ∧
      before.roster.nextId = ⟨0⟩ := by
  obtain ⟨hgenealogy, hwedded⟩ := hc.wedded (Nat.le_of_eq hfull)
  obtain ⟨hmale, hpartners⟩ := hwedded h.dynasty hd
  have hfamily : h.dynasty.family = [h.dynasty.founder, h.dynasty.foundingQueen] := by
    obtain ⟨i, hi⟩ := List.mem_iff_getElem?.1 hd
    rw [hc.place hi]
    rfl
  -- A partner of the king is a woman.
  obtain ⟨g, hg, hopposite⟩ := hgenealogy.opposite hpartners
  obtain rfl : Gender.male = g := Option.some.inj (hmale.symm.trans hg)
  obtain ⟨p, hp, hpmale⟩ := Roster.exists_of_genderOf hmale
  obtain ⟨q, hq, hqfemale⟩ := Roster.exists_of_genderOf hopposite
  have hpalive := Roster.isAlive_of_obituaries hc.obituaries hp
  have hqalive := Roster.isAlive_of_obituaries hc.obituaries hq
  rw [hfamily, List.forall_mem_cons, List.forall_mem_singleton, hp, hq] at hsame
  have hpartners' : h.dynasty.foundingQueen ∈ h.roster.partnersOf h.dynasty.founder := by
    rw [hlinks.partners]
    exact hpartners
  obtain ⟨before, arrival, father, dice, hyear, hdynasty, hlater, hsize'⟩ :=
    year_of_couple hfamily hr hpartners' hsame.1 hsame.2 hpmale
      (isFertile_of_founded hfounded hq hqalive hqfemale (hage q hq)) hpalive hqalive
      (hale_of_founded hfounded hp hpalive) (hale_of_founded hfounded hq hqalive)
      (show (1 : Float) ≤ 1 by decide)
  refine ⟨before, arrival, father, dice, hyear, hdynasty, hlater, ?_⟩
  unfold Roster.nextId
  rw [hsize', hsize, hfull]
  rfl

/-! ## Operations without wrapping -/

/-- Everyone in the roster was born or has died within the forty years up to a year. -/
def Recent (year : Year) (r : Roster) : Prop :=
  ∀ y ∈ r.years, year.toInt - 40 ≤ y.toInt ∧ y.toInt ≤ year.toInt

theorem Recent.born {r : Roster} (h : Recent year r) {x : PersonId} (hp : r.get? x = some p) :
    year.toInt - 40 ≤ p.birthYear.toInt ∧ p.birthYear.toInt ≤ year.toInt :=
  Roster.forall_years_iff.1 h p (Roster.mem_of_get? hp) p.birthYear List.mem_cons_self

/-- As long as ids are left, the founders are of these years. -/
theorem recent_of_founded {r : Roster} (hfounded : r.Founded year) (hliving : r.obituaries = [])
    (hsize : r.size ≤ 2 ^ 32) : Recent year r := by
  refine Roster.forall_years_iff.2 fun p hp => ?_
  obtain ⟨i, hi⟩ := Array.mem_iff_getElem?.1 (Array.mem_toList_iff.1 hp)
  have hlt : i < r.size := (Array.getElem?_eq_some_iff.1 hi).1
  have hget : r.get? ⟨.ofNat i⟩ = some p := by
    unfold Roster.get?
    rw [UInt32.toNat_ofNat_of_lt' (Nat.lt_of_lt_of_le hlt hsize)]
    exact hi
  obtain ⟨hyoung, hold, -⟩ := hfounded.persons hget
  refine List.forall_mem_cons.2 ⟨⟨by omega, by omega⟩, ?_⟩
  rw [Option.isNone_iff_eq_none.1 (Roster.isAlive_of_obituaries hliving hget)]
  exact List.forall_mem_nil _

/-- Under these settings no operation of a turn wraps around while nobody is on the market. -/
theorem inRange_of_recent {id : PersonId} {h : House σ} (hrecent : Recent year h.roster)
    (hmarket : h.market.candidates = []) :
    ∀ op ∈ h.memberOperations (.placid minAge) year id, op.InRange := by
  intro op hop
  obtain ⟨p, hp, halive, hperformed⟩ := performed hop
  obtain ⟨hlow, hhigh⟩ := hrecent.born hp
  have hage := Person.toInt_age halive (show 0 ≤ year.toInt - p.birthYear.toInt by omega) (by omega)
  -- Nobody loses health, ages are between nought and forty, and nobody looks for a partner.
  cases hperformed with
  | weakened drawn =>
    have hword := Int32.le_toInt p.health
    have hword' := Int32.toInt_lt p.health
    have hzero : (0 : Int32).toInt = 0 := rfl
    rw [drawnLoss_placid]
    exact Operation.inRange_sub.2 (by omega)
  | aged => exact Person.inRange_ageOperation halive (by omega) (by omega)
  | limited drawn =>
    rw [drawnBonus_placid]
    show (Operation.add 80 0).InRange
    decide
  | succeeded loss dice hop =>
    -- The search for an heir asks for ages in the roster after the death.
    have haged : Recent year (h.roster.weaken id loss) :=
      Roster.forall_years_update (f := Roster.weakened loss) (fun _ hp => hp) hrecent id
    have hburied : Recent year ((h.roster.weaken id loss).kill id year) :=
      Roster.forall_years_kill haged id (by omega)
    obtain ⟨x, q, hq, hqalive, rfl, -⟩ := Roster.mem_heirOperations hop
    obtain ⟨hqlow, hqhigh⟩ := hburied.born hq
    exact Person.inRange_ageOperation hqalive (by omega) (by omega)
  | grew hgrown =>
    have hleast : (18 : Int32).toInt = 18 := rfl
    show (Operation.sub (p.age year) 18).InRange
    exact Operation.inRange_sub.2 (by omega)
  | sought loss hc =>
    rw [hmarket] at hc
    cases hc

/-- So it is in all turns of a list. -/
theorem inRange_passMembers {ids : List PersonId} {h : House σ} (hrecent : Recent year h.roster)
    (hmarket : h.market.candidates = []) :
    (∀ op ∈ h.membersOperations (.placid minAge) year ids, op.InRange) ∧
      Recent year (h.passMembers (.placid minAge) year ids).2.roster ∧
      (h.passMembers (.placid minAge) year ids).2.market.candidates = [] := by
  induction ids generalizing h with
  | nil => exact ⟨List.forall_mem_nil _, hrecent, hmarket⟩
  | cons id rest ih =>
    have hturned := turned (.placid minAge) year id h
    have hrecent' : Recent year (h.passMember (.placid minAge) year id).2.roster :=
      hturned.forall_years (by omega) hrecent
    have hmarket' : (h.passMember (.placid minAge) year id).2.market.candidates = [] :=
      List.subset_nil.1 (hmarket ▸ hturned.candidates_subset)
    obtain ⟨hops, hend⟩ := ih hrecent' hmarket'
    exact ⟨List.forall_mem_append.2 ⟨inRange_of_recent hrecent hmarket, hops⟩, hend⟩

end House

end Annals
