import Annals.Proofs.Family.Genealogy
import Annals.Proofs.Family.Operations
/-!
# Lawful births

What holds at a birth stays true of the records. A mother gives birth in her own turn only, so what
is known of those whose turn is still to come keeps two children of a year apart.

* `Person.LaterIn`, `Roster.ContinuesIn`: later in a year, where whoever has died died in that year.
* `LawfulBirth`, `Roster.Births`: what the records of a child and its parents say, for all children.
* `Roster.Births.keep`, `Roster.Births.bear`: everything but a birth, and a birth.
* `Roster.Births.turned`, `births_turnLaw`: turns whose operations do not wrap around.
-/

namespace Annals

/-! ## Later in a year -/

/-- The same person later in a year: whoever has died since has died in that year. -/
structure Person.LaterIn (year : Year) (p q : Person) : Prop where
  becomes : p.Becomes q
  death : q.deathYear = p.deathYear ∨ p.deathYear = none ∧ q.deathYear = some year

namespace Person.LaterIn

variable {year : Year} {p q s : Person}

theorem of_same (h : p.Becomes q) (hdeath : q.deathYear = p.deathYear) : LaterIn year p q :=
  ⟨h, .inl hdeath⟩

theorem trans (h : LaterIn year p q) (h' : LaterIn year q s) : LaterIn year p s := by
  refine ⟨h.becomes.trans h'.becomes, ?_⟩
  rcases h.death with hsame | ⟨halive, hdead⟩
  · rw [← hsame]
    exact h'.death
  · exact .inr ⟨halive, h'.becomes.deathYear year hdead⟩

end Person.LaterIn

namespace Roster

variable {year : Year} {r r' r'' : Roster}

/-- Everyone is still there, later in the year. -/
structure ContinuesIn (year : Year) (r r' : Roster) : Prop where
  stays : ∀ {id p}, r.get? id = some p → ∃ q, r'.get? id = some q ∧ p.LaterIn year q

namespace ContinuesIn

theorem refl (r : Roster) : r.ContinuesIn year r := ⟨fun hp => ⟨_, hp, .of_same (.refl _) rfl⟩⟩

theorem trans (h : r.ContinuesIn year r') (h' : r'.ContinuesIn year r'') :
    r.ContinuesIn year r'' := by
  refine ⟨fun hp => ?_⟩
  obtain ⟨q, hq, hlater⟩ := h.stays hp
  obtain ⟨s, hs, hlater'⟩ := h'.stays hq
  exact ⟨s, hs, hlater.trans hlater'⟩

theorem update {f : Person → Person} (hf : ∀ p : Person, p.LaterIn year (f p)) (r : Roster)
    (id : PersonId) : r.ContinuesIn year (r.update id f) := by
  refine ⟨@fun x p hp => ?_⟩
  rw [get?_update, hp]
  split
  · exact ⟨f p, rfl, hf p⟩
  · exact ⟨p, rfl, .of_same (.refl p) rfl⟩

theorem spawn (r : Roster) (a : Arrival) : r.ContinuesIn year (r.spawn a).2 :=
  ⟨fun hp => ⟨_, get?_spawn_of_some hp a, .of_same (.refl _) rfl⟩⟩

theorem weaken (r : Roster) (id : PersonId) (loss : Int32) :
    r.ContinuesIn year (r.weaken id loss) :=
  update (fun p => .of_same (becomes_weakened loss p) rfl) r id

theorem crown (r : Roster) (id : PersonId) : r.ContinuesIn year (r.crown id) :=
  update (fun p => .of_same (becomes_withCrown p) rfl) r id

/-- Whoever dies dies in the year. -/
theorem kill (r : Roster) (id : PersonId) : r.ContinuesIn year (r.kill id year) := by
  refine update (f := deceased year) (fun p => ⟨becomes_deceased year p, ?_⟩) r id
  cases hdeath : p.deathYear with
  | none =>
    refine .inr ⟨rfl, ?_⟩
    show some (p.deathYear.getD year) = some year
    rw [hdeath]
    rfl
  | some y =>
    refine .inl ?_
    show some (p.deathYear.getD year) = some y
    rw [hdeath]
    rfl

theorem marry (r : Roster) (a b : PersonId) : r.ContinuesIn year (r.marry a b) := by
  have hpartner : ∀ (c : PersonId) (p : Person), p.LaterIn year (addPartner c p) := by
    intro c p
    refine .of_same (becomes_addPartner c p) ?_
    unfold addPartner
    split <;> rfl
  exact (update (hpartner b) r a).trans (update (hpartner a) _ b)

theorem bear (r : Roster) (a : Arrival) (mother father : PersonId) :
    r.ContinuesIn year (r.bear a mother father) := by
  have hchild : ∀ p, Person.LaterIn year p (withChild r.nextId p) :=
    fun p => .of_same (becomes_withChild r.nextId p) rfl
  have hparents : ∀ p, Person.LaterIn year p (withParents mother father p) :=
    fun p => .of_same (becomes_withParents mother father p) rfl
  have hspawned : r.ContinuesIn year (r.spawn a).2 := spawn r a
  have hnoted := (update hchild (r.spawn a).2 mother).trans (update hchild _ father)
  exact hspawned.trans (hnoted.trans (update hparents _ r.nextId))

end ContinuesIn

end Roster

/-! ## Births -/

/-- What the records of a child and its parents say of the birth. -/
structure LawfulBirth (s : ChildbirthSettings) (child mother father : Person) : Prop where
  old : s.minAge.toInt < child.birthYear.toInt - mother.birthYear.toInt
  young : child.birthYear.toInt - mother.birthYear.toInt < s.maxAge.toInt
  /-- The mother lived in the year of the birth. -/
  motherLived : ∀ y, mother.deathYear = some y → child.birthYear ≤ y
  fatherLived : ∀ y, father.deathYear = some y → child.birthYear ≤ y
  faction : child.faction = mother.faction
  region : child.region = mother.region

/-- Later in a year that is not before the birth, the records still say the same. -/
theorem LawfulBirth.later {s : ChildbirthSettings} {year : Year}
    {child mother father child' mother' father' : Person} (h : LawfulBirth s child mother father)
    (hyear : child.birthYear ≤ year) (hchild : child.LaterIn year child')
    (hmother : mother.LaterIn year mother') (hfather : father.LaterIn year father') :
    LawfulBirth s child' mother' father' := by
  -- A death that is noted since then is one of this year.
  have hlived : ∀ {p q : Person}, p.LaterIn year q →
      (∀ y, p.deathYear = some y → child.birthYear ≤ y) →
      ∀ y, q.deathYear = some y → child'.birthYear ≤ y := by
    intro p q hlater hp y hy
    rw [hchild.becomes.birthYear]
    rcases hlater.death with hsame | ⟨-, hdead⟩
    · exact hp y (hsame.symm.trans hy)
    · rw [hdead] at hy
      cases hy
      exact hyear
  have hb := hchild.becomes
  have hm := hmother.becomes
  refine ⟨?_, ?_, hlived hmother h.motherLived, hlived hfather h.fatherLived, ?_, ?_⟩
  · rw [hb.birthYear, hm.birthYear]
    exact h.old
  · rw [hb.birthYear, hm.birthYear]
    exact h.young
  · rw [hb.faction, hm.faction]
    exact h.faction
  · rw [hb.region, hm.region]
    exact h.region

namespace Roster

variable {r r' : Roster} {s : ChildbirthSettings} {year : Year} {waiting waiting' : List PersonId}

theorem exists_of_parentsOf {c : PersonId} {parents : PersonId × PersonId}
    (h : r.parentsOf c = some parents) : ∃ child, r.get? c = some child := by
  obtain ⟨child, hchild, -⟩ := Option.bind_eq_some_iff.1 h
  exact ⟨child, hchild⟩

/-- What a year in progress knows of one child: the birth was lawful and is not to come, and a
mother whose turn is still to come has no child of this year. -/
structure BornLawfully (s : ChildbirthSettings) (year : Year) (waiting : List PersonId)
    (mo fa : PersonId) (child : Person) (r : Roster) : Prop where
  lawful : ∃ mother father, r.get? mo = some mother ∧ r.get? fa = some father ∧
    LawfulBirth s child mother father
  past : child.birthYear ≤ year
  turn : child.birthYear = year → mo ∉ waiting

theorem BornLawfully.later {mo fa : PersonId} {child child' : Person}
    (h : r.BornLawfully s year waiting mo fa child) (hlater : r.ContinuesIn year r')
    (hchild : child.LaterIn year child') (hwaiting : waiting' ⊆ waiting) :
    r'.BornLawfully s year waiting' mo fa child' := by
  obtain ⟨mother, father, hmother, hfather, hlawful⟩ := h.lawful
  obtain ⟨mother', hmother', hmotherLater⟩ := hlater.stays hmother
  obtain ⟨father', hfather', hfatherLater⟩ := hlater.stays hfather
  refine ⟨⟨mother', father', hmother', hfather',
    hlawful.later h.past hchild hmotherLater hfatherLater⟩, ?_, fun hyear hmem => ?_⟩
  · rw [hchild.becomes.birthYear]
    exact h.past
  · rw [hchild.becomes.birthYear] at hyear
    exact h.turn hyear (hwaiting hmem)

/-- All births so far have been lawful, and no mother has two children of one year. -/
structure Births (s : ChildbirthSettings) (year : Year) (waiting : List PersonId) (r : Roster) :
    Prop where
  born : ∀ {c mo fa child}, r.parentsOf c = some (mo, fa) → r.get? c = some child →
    r.BornLawfully s year waiting mo fa child
  apart : ∀ {c c' mo fa fa' child child'}, r.parentsOf c = some (mo, fa) →
    r.parentsOf c' = some (mo, fa') → r.get? c = some child → r.get? c' = some child' → c ≠ c' →
    child.birthYear ≠ child'.birthYear

namespace Births

theorem empty (s : ChildbirthSettings) (year : Year) (waiting : List PersonId) :
    Roster.empty.Births s year waiting := by
  have hnobody : ∀ c, Roster.empty.parentsOf c = none := fun _ => rfl
  constructor
  · intro c mo fa child hc
    rw [hnobody] at hc
    cases hc
  · intro c c' mo fa fa' child child' hc
    rw [hnobody] at hc
    cases hc

/-- Whoever was a child before is the same child later. -/
theorem exists_earlier (hlater : r.ContinuesIn year r') {c : PersonId}
    {parents : PersonId × PersonId} {child' : Person} (hc : r.parentsOf c = some parents)
    (hchild' : r'.get? c = some child') :
    ∃ child, r.get? c = some child ∧ child.LaterIn year child' := by
  obtain ⟨child, hchild⟩ := exists_of_parentsOf hc
  obtain ⟨q, hq, hlaterIn⟩ := hlater.stays hchild
  rw [hq] at hchild'
  cases hchild'
  exact ⟨child, hchild, hlaterIn⟩

/-- Children from before are recorded as lawfully later in the year. -/
theorem born_later (h : r.Births s year waiting) (hlater : r.ContinuesIn year r')
    (hwaiting : waiting' ⊆ waiting) {c mo fa : PersonId} {child' : Person}
    (hc : r.parentsOf c = some (mo, fa)) (hchild' : r'.get? c = some child') :
    r'.BornLawfully s year waiting' mo fa child' := by
  obtain ⟨child, hchild, hlaterIn⟩ := exists_earlier hlater hc hchild'
  exact (h.born hc hchild).later hlater hlaterIn hwaiting

/-- Two children from before are still children of different years. -/
theorem apart_later (h : r.Births s year waiting) (hlater : r.ContinuesIn year r')
    {c c' mo fa fa' : PersonId} {child child' : Person} (hc : r.parentsOf c = some (mo, fa))
    (hc' : r.parentsOf c' = some (mo, fa')) (hchild : r'.get? c = some child)
    (hchild' : r'.get? c' = some child') (hne : c ≠ c') : child.birthYear ≠ child'.birthYear := by
  obtain ⟨p, hp, hbecomes⟩ := exists_earlier hlater hc hchild
  obtain ⟨p', hp', hbecomes'⟩ := exists_earlier hlater hc' hchild'
  rw [hbecomes.becomes.birthYear, hbecomes'.becomes.birthYear]
  exact h.apart hc hc' hp hp' hne

/-- Without a birth the records stay lawful. -/
theorem keep (h : r.Births s year waiting) (hlater : r.ContinuesIn year r')
    (hparents : ∀ x, r'.parentsOf x = r.parentsOf x) (hwaiting : waiting' ⊆ waiting) :
    r'.Births s year waiting' where
  born := by
    intro c mo fa child hc hchild
    rw [hparents] at hc
    exact h.born_later hlater hwaiting hc hchild
  apart := by
    intro c c' mo fa fa' child child' hc hc' hchild hchild' hne
    rw [hparents] at hc hc'
    exact h.apart_later hlater hc hc' hchild hchild' hne

/-- A founding brings no births. -/
theorem withCouple (h : r.Births s year waiting) (king queen : Arrival) :
    (r.withCouple king queen).Births s year waiting := by
  have hspawned : ((r.spawn king).2.spawn queen).2.Births s year waiting :=
    (h.keep (.spawn r king) (SameLinks.spawn r king).parents (List.Subset.refl _)).keep
      (.spawn _ queen) (SameLinks.spawn _ queen).parents (List.Subset.refl _)
  exact (hspawned.keep (.marry ..) (parentsOf_marry _ _ _) (List.Subset.refl _)).keep (.crown ..)
    (SameLinks.crown ..).parents (List.Subset.refl _)

/-- In a later year everyone's turn is still to come. -/
theorem newYear (h : r.Births s year waiting) {year' : Year} (hyear : year < year')
    (waiting' : List PersonId) : r.Births s year' waiting' where
  born := by
    intro c mo fa child hc hchild
    have hborn := h.born hc hchild
    have hless := Int32.lt_of_le_of_lt hborn.past hyear
    refine ⟨hborn.lawful, Int32.le_of_lt hless, fun heq => ?_⟩
    rw [heq] at hless
    exact absurd hless Int32.lt_irrefl
  apart := h.apart

/-- The birth of a child in its mother's turn, when the parents live and the mother is of the right
age, is lawful. -/
theorem bear {mother father : PersonId} {m f : Person} {a : Arrival}
    (h : r.Births s year (mother :: waiting)) (hsize : r.size < 2 ^ 32)
    (hm : r.get? mother = some m) (hf : r.get? father = some f) (hne : mother ≠ father)
    (hmalive : m.deathYear = none) (hfalive : f.deathYear = none) (hwaiting : mother ∉ waiting)
    (hyear : a.birthYear = year) (hfaction : a.faction = m.faction) (hregion : a.region = m.region)
    (hold : s.minAge.toInt < year.toInt - m.birthYear.toInt)
    (hyoung : year.toInt - m.birthYear.toInt < s.maxAge.toInt) :
    (r.bear a mother father).Births s year waiting := by
  have hlater : r.ContinuesIn year (r.bear a mother father) := .bear r a mother father
  have hparents := parentsOf_bear (a := a) hsize hm hf hne
  have hnewborn := get?_bear (a := a) hsize hm hf hne r.nextId
  rw [if_pos rfl] at hnewborn
  have hsub : waiting ⊆ mother :: waiting := List.subset_cons_self _ _
  -- An older child of the mother is of an earlier year, for her turn was still to come.
  have hearlier : ∀ {c fa child}, r.parentsOf c = some (mother, fa) →
      (r.bear a mother father).get? c = some child → child.birthYear ≠ year := by
    intro c fa child hc hchild heq
    obtain ⟨p, hp, hbecomes⟩ := exists_earlier hlater hc hchild
    rw [hbecomes.becomes.birthYear] at heq
    exact (h.born hc hp).turn heq List.mem_cons_self
  constructor
  case born =>
    intro c mo fa child hc hchild
    rw [hparents] at hc
    split at hc
    case isFalse => exact h.born_later hlater hsub hc hchild
    case isTrue hnext =>
      cases hc
      rw [hnext, hnewborn] at hchild
      cases hchild
      have hlawful : LawfulBirth s (withParents mother father (a.person r.nextId)) m f := by
        refine ⟨?_, ?_, fun y hy => ?_, fun y hy => ?_, hfaction, hregion⟩
        · show s.minAge.toInt < a.birthYear.toInt - m.birthYear.toInt
          rw [hyear]
          exact hold
        · show a.birthYear.toInt - m.birthYear.toInt < s.maxAge.toInt
          rw [hyear]
          exact hyoung
        · rw [hmalive] at hy
          cases hy
        · rw [hfalive] at hy
          cases hy
      obtain ⟨m', hm', hmLater⟩ := hlater.stays hm
      obtain ⟨f', hf', hfLater⟩ := hlater.stays hf
      have hpast : (withParents mother father (a.person r.nextId)).birthYear ≤ year :=
        Int32.le_of_eq hyear
      exact ⟨⟨m', f', hm', hf', hlawful.later hpast (.of_same (.refl _) rfl) hmLater hfLater⟩,
        hpast, fun _ => hwaiting⟩
  case apart =>
    intro c c' mo fa fa' child child' hc hc' hchild hchild' hne'
    rw [hparents] at hc hc'
    split at hc
    case isFalse =>
      split at hc'
      case isFalse => exact h.apart_later hlater hc hc' hchild hchild' hne'
      case isTrue hnext =>
        cases hc'
        rw [hnext, hnewborn] at hchild'
        cases hchild'
        exact fun heq => hearlier hc hchild (heq.trans hyear)
    case isTrue hnext =>
      cases hc
      rw [hnext, hnewborn] at hchild
      cases hchild
      rw [if_neg fun hnext' => hne' (hnext.trans hnext'.symm)] at hc'
      exact fun heq => hearlier hc' hchild' (heq.symm.trans hyear)

end Births

end Roster

/-! ## Turns -/

namespace House

variable {σ : Type} [Dice σ] {s : FamilySettings} {year : Year} {id : PersonId} {p : Person}
  {h h' : House σ} {events : List FamilyEvent}

/-- The age of a fertile woman as a difference of integers, if it does not wrap around. -/
theorem isFertile_iff {s : ChildbirthSettings} (halive : p.deathYear = none)
    (hage : (Operation.sub year p.birthYear).InRange) : isFertile s year p = true ↔
      p.gender = .female ∧ s.minAge.toInt < year.toInt - p.birthYear.toInt ∧
        year.toInt - p.birthYear.toInt < s.maxAge.toInt := by
  have heq : p.age year = year - p.birthYear := by
    unfold Person.age
    rw [halive]
    rfl
  unfold isFertile
  rw [heq, Bool.and_eq_true, Bool.and_eq_true, decide_eq_true_eq, decide_eq_true_eq,
    decide_eq_true_eq, Int32.lt_iff_toInt_lt, Int32.lt_iff_toInt_lt, Operation.toInt_sub hage,
    and_assoc]

end House

/-- A turn keeps the births lawful, unless the age of the member wraps around. -/
theorem Roster.Births.turned {σ : Type} [Dice σ] {s : FamilySettings} {year : Year} {id : PersonId}
    {h h' : House σ} {events : List FamilyEvent} {rest : List PersonId}
    (hturned : House.Turned s year id h events h')
    (hb : h.roster.Births s.childbirth year (id :: rest)) (hr : h.roster.Genealogy)
    (hsize : h'.roster.size ≤ 2 ^ 32) (hid : id ∉ rest)
    (hage : ∀ p, h.roster.get? id = some p → p.isAlive = true →
      (Operation.sub year p.birthYear).InRange) :
    h'.roster.Births s.childbirth year rest := by
  have hsub : rest ⊆ id :: rest := List.subset_cons_self _ _
  cases hturned with
  | gone hdead => exact hb.keep (.refl _) (fun _ => rfl) hsub
  | @aged p loss dice _ _ hget halive hfared =>
    have hr' : (h.roster.weaken id loss).Genealogy := hr.weaken id loss
    have hb' : (h.roster.weaken id loss).Births s.childbirth year (id :: rest) :=
      hb.keep (.weaken ..) (Roster.SameLinks.weaken ..).parents (List.Subset.refl _)
    have hburied : ((h.roster.weaken id loss).kill id year).Births s.childbirth year rest :=
      hb'.keep (.kill ..) (Roster.SameLinks.kill ..).parents hsub
    cases hfared with
    | quiet dice => exact hb'.keep (.refl _) (fun _ => rfl) hsub
    | died hother => exact hburied
    | succeeded isKing hmonarch hheir =>
      exact hburied.keep (.crown ..) (Roster.SameLinks.crown ..).parents (List.Subset.refl _)
    | ended isKing hmonarch hheir => exact hburied
    | married dice hgrown hsingle hpartner =>
      exact hb'.keep (.marry ..) (fun _ => Roster.parentsOf_marry ..) hsub
    | bore drawn dice hfertile hfather arrival harrival =>
      obtain ⟨hpartner, hfatherAlive⟩ := Roster.livingPartner?_mem hfather
      obtain ⟨-, f, -, hf, hne⟩ := hr'.exists_couple hpartner
      have hmlives : p.deathYear = none := Option.isNone_iff_eq_none.1 halive
      have hflives : f.deathYear = none :=
        Option.isNone_iff_eq_none.1 ((Roster.isAlive_of_get? hf).symm.trans hfatherAlive)
      -- The mother has the year of birth that she had before she aged.
      have hinRange : (Operation.sub year p.birthYear).InRange := by
        have hbefore : (h.roster.update id (Roster.weakened loss)).get? id = some p := hget
        rw [Roster.get?_update_self] at hbefore
        obtain ⟨q, hq, rfl⟩ := Option.map_eq_some_iff.1 hbefore
        exact hage q hq halive
      obtain ⟨-, hold, hyoung⟩ := (House.isFertile_iff hmlives hinRange).1 hfertile
      change ((h.roster.weaken id loss).bear arrival id _).size ≤ 2 ^ 32 at hsize
      rw [Roster.size_bear] at hsize
      subst harrival
      exact hb'.bear hsize hget hf hne hmlives hflives hid rfl rfl rfl hold hyoung

/-- As long as no year, age or health wraps around, turns keep the births lawful. -/
theorem births_turnLaw (σ : Type) [Dice σ] (s : FamilySettings) (year : Year) :
    TurnLaw σ s year (fun op => op.isSigned = true → op.InRange) (fun _ => True)
      fun waiting _ r _ => r.Genealogy ∧ waiting.Nodup ∧ r.Births s.childbirth year waiting where
  grants := fun _ _ _ _ => trivial
  turn := by
    intro before behind id rest h hmember hsize hops hP
    obtain ⟨hr, honce, hb⟩ := hP
    obtain ⟨hid, hrest⟩ := List.nodup_cons.1 honce
    have hturned := House.turned s year id h
    refine ⟨hr.turned hturned hsize, hrest, hb.turned hturned hr hsize hid fun p hp halive => ?_⟩
    have hmem : p.ageOperation year ∈ h.memberOperations s year id :=
      House.ageOperation_mem hp halive
    rw [Person.ageOperation_of_isAlive halive] at hmem
    exact hops _ hmem rfl

end Annals
