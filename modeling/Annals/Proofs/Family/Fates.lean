import Annals.Proofs.Family.Census
import Annals.Proofs.Family.Weddings
/-!
# What a turn brings to a member

The turn of a member ends in one of few ways, and each of them says all that the turn changes: what
is told, who joins the family, who leaves the market, whether the member dies, and who reigns.

* `Fate`: the ways in which a turn can end, with what each of them tells and brings.
* `House.Orderly`: known persons, none of whom is on the market.
* `House.Brings`: what a turn that ends in a fate changes.
* `House.exists_brings`: every turn brings a fate.
-/

namespace Annals

/-! ## Known persons -/

namespace Roster

variable {r r' : Roster} {x : PersonId}

/-- Whether somebody has the id. -/
def Knows (r : Roster) (x : PersonId) : Prop := ∃ p, r.get? x = some p

theorem Continues.knows (h : r.Continues r') (hx : r.Knows x) : r'.Knows x := by
  obtain ⟨p, hp⟩ := hx
  obtain ⟨q, hq, -⟩ := h.stays hp
  exact ⟨q, hq⟩

theorem knows_of_isAlive (h : r.isAlive x = true) : r.Knows x := by
  obtain ⟨p, hp, -⟩ := exists_of_isAlive h
  exact ⟨p, hp⟩

/-- The dead of whom one knows stay dead. -/
theorem Continues.isAlive_of_knows (h : r.Continues r') (hx : r.Knows x)
    (halive : r'.isAlive x = true) : r.isAlive x = true := by
  obtain ⟨p, hp⟩ := hx
  exact h.isAlive (genderOf_of_get? hp) halive

/-- The dead stay dead. -/
theorem Continues.isDead_of_knows (h : r.Continues r') (hx : r.Knows x)
    (hdead : r.isAlive x = false) : r'.isAlive x = false := by
  rw [Bool.eq_false_iff]
  intro halive
  rw [h.isAlive_of_knows hx halive] at hdead
  cases hdead

theorem Continues.birthOf (h : r.Continues r') (hx : r.Knows x) : r'.birthOf x = r.birthOf x := by
  obtain ⟨p, hp⟩ := hx
  obtain ⟨q, hq, hbecomes⟩ := h.stays hp
  rw [birthOf_of_get? hp, birthOf_of_get? hq, hbecomes.birthYear]

/-- The age that an id has in a year, or would have. -/
def ageOf (r : Roster) (year : Year) (x : PersonId) : Int32 := year - (r.birthOf x).getD 0

/-- As long as ids are left, nobody has the next one. -/
theorem not_knows_nextId (h : r.size < 2 ^ 32) : ¬ r.Knows r.nextId := by
  rintro ⟨p, hp⟩
  rw [get?_nextId h] at hp
  cases hp

/-- After a birth the newborn lives, and whoever has lived before. -/
theorem isAlive_bear_iff (h : r.size < 2 ^ 32) {a : Arrival} {mother father : PersonId} :
    (r.bear a mother father).isAlive x = true ↔ r.isAlive x = true ∨ x = r.nextId := by
  unfold bear
  rw [isAlive_addChild]
  exact isAlive_spawn_iff h

/-- The next ids of a roster. -/
def nextIds (r : Roster) (n : Nat) : List PersonId :=
  (List.range n).map fun i => { index := UInt32.ofNat (r.size + i) }

theorem nextIds_add (h : r'.size = r.size + n) (m : Nat) :
    r.nextIds (n + m) = r.nextIds n ++ r'.nextIds m := by
  unfold nextIds
  rw [List.range_add, List.map_append, List.map_map, h]
  congr 1
  refine List.map_congr_left fun i _ => ?_
  show PersonId.mk (UInt32.ofNat (r.size + (n + i))) = PersonId.mk (UInt32.ofNat (r.size + n + i))
  rw [Nat.add_assoc]

end Roster

/-! ## Fates -/

/-- How the turn of a member ends. -/
inductive Fate where
  /-- The member was dead already. -/
  | absent
  | quiet
  | wed (partner : PersonId)
  | bore (child father : PersonId)
  /-- Somebody dies who does not reign. -/
  | died
  /-- A monarch dies and is followed by an heir. -/
  | succeeded (heir : PersonId) (kinship : Kinship) (isKing : Bool)
  /-- A monarch dies without an heir. -/
  | ended (isKing : Bool)
deriving DecidableEq, Repr

namespace Fate

/-- Whether the member dies. -/
def isDeath : Fate → Bool
  | died => true
  | succeeded _ _ _ => true
  | ended _ => true
  | _ => false

/-- Whether the crown is handed over, be it to nobody. -/
def isHandover : Fate → Bool
  | succeeded _ _ _ => true
  | ended _ => true
  | _ => false

/-- Who comes from the market into the family. -/
def spouses : Fate → List PersonId
  | wed partner => [partner]
  | _ => []

/-- Who is born into the family. -/
def newborns : Fate → List PersonId
  | bore child _ => [child]
  | _ => []

/-- Who joins the family. -/
def joined (f : Fate) : List PersonId := f.spouses ++ f.newborns

/-- Who reigns afterwards. -/
def crown (monarch : Option PersonId) : Fate → Option PersonId
  | succeeded heir _ _ => some heir
  | ended _ => none
  | _ => monarch

/-- The others of whom is told. -/
def named : Fate → List PersonId
  | wed partner => [partner]
  | bore child father => [child, father]
  | succeeded heir _ _ => [heir]
  | _ => []

/-- What is told of the member. -/
def deeds (r : Roster) (year : Year) (id : PersonId) : Fate → List FamilyDeed
  | absent => []
  | quiet => []
  | wed partner => [.marriage (r.nameOf id) (r.nameOf partner) (r.ageOf year id)]
  | bore child father => [.birth (r.nameOf child) (r.nameOf id) (r.nameOf father)]
  | died => [.death (r.nameOf id) (r.ageOf year id)]
  | succeeded heir kinship isKing =>
    [.death (r.nameOf id) (r.ageOf year id),
      .succession (r.nameOf id) (r.nameOf heir) kinship isKing]
  | ended isKing => [.death (r.nameOf id) (r.ageOf year id), .noSuccessor (r.nameOf id) isKing]

/-- At any later time the same would be told. -/
theorem deeds_later {r r' : Roster} (h : r.Continues r') (year : Year) {id : PersonId} {f : Fate}
    (hid : r.Knows id) (hnamed : ∀ x ∈ f.named, r.Knows x) :
    f.deeds r' year id = f.deeds r year id := by
  have hname : ∀ {x}, r.Knows x → r'.nameOf x = r.nameOf x := by
    rintro x ⟨p, hp⟩
    exact h.nameOf hp
  have hage : r'.ageOf year id = r.ageOf year id := by
    unfold Roster.ageOf
    rw [h.birthOf hid]
  have hmember := hname hid
  cases f with
  | absent => rfl
  | quiet => rfl
  | wed partner =>
    have hpartner := hname (hnamed partner List.mem_cons_self)
    show [FamilyDeed.marriage _ _ _] = [FamilyDeed.marriage _ _ _]
    rw [hmember, hpartner, hage]
  | bore child father =>
    have hchild := hname (hnamed child List.mem_cons_self)
    have hfather := hname (hnamed father (List.mem_cons_of_mem child List.mem_cons_self))
    show [FamilyDeed.birth _ _ _] = [FamilyDeed.birth _ _ _]
    rw [hmember, hchild, hfather]
  | died =>
    show [FamilyDeed.death _ _] = [FamilyDeed.death _ _]
    rw [hmember, hage]
  | succeeded heir kinship isKing =>
    have hheir := hname (hnamed heir List.mem_cons_self)
    show [FamilyDeed.death _ _, FamilyDeed.succession _ _ _ _] =
      [FamilyDeed.death _ _, FamilyDeed.succession _ _ _ _]
    rw [hmember, hage, hheir]
  | ended isKing =>
    show [FamilyDeed.death _ _, FamilyDeed.noSuccessor _ _] =
      [FamilyDeed.death _ _, FamilyDeed.noSuccessor _ _]
    rw [hmember, hage]

end Fate

/-! ## Turns -/

namespace House

variable {σ : Type} {s : FamilySettings} {year : Year} {id : PersonId} {p : Person} {h h' : House σ}
  {events : List FamilyEvent} {ids : List PersonId} {fate : Fate}

/-- A house and a list of persons: all of them, the rest of the family and the candidates on the
market are known, and nobody is both on the market and in the list or the family. -/
structure Orderly (ids : List PersonId) (h : House σ) : Prop where
  numbered : h.roster.Numbered
  listed : ∀ x ∈ ids, h.roster.Knows x
  family : ∀ x ∈ h.dynasty.family, h.roster.Knows x
  market : ∀ x ∈ h.market.persons, h.roster.Knows x
  apart : ∀ x ∈ h.market.persons, x ∉ ids ∧ x ∉ h.dynasty.family

/-- What a turn that ends in a fate changes. -/
structure Brings (s : FamilySettings) (year : Year) (id : PersonId) (fate : Fate) (h : House σ)
    (events : List FamilyEvent) (h' : House σ) : Prop where
  told : events = (fate.deeds h'.roster year id).map (h.event year)
  named : ∀ x ∈ fate.named, h'.roster.Knows x
  absent : fate = .absent ↔ h.roster.isAlive id = false
  died : fate.isDeath = true ↔ h.roster.isAlive id = true ∧ h'.roster.isAlive id = false
  handover : fate.isDeath = true → (fate.isHandover = true ↔ h.dynasty.monarch = some id)
  monarch : h'.dynasty.monarch = fate.crown h.dynasty.monarch
  name : h'.dynasty.name = h.dynasty.name
  family : h'.dynasty.family =
    h.dynasty.family.filter (fun x => x ≠ id ∨ h'.roster.isAlive id = true) ++ fate.joined
  joined : ∀ x ∈ fate.joined, h'.roster.isAlive x = true
  spouses : ∀ x ∈ fate.spouses, x ∈ h.market.persons
  newborns : fate.newborns = h.roster.nextIds fate.newborns.length
  health : ∀ x ∈ fate.newborns, h'.roster.healthOf x = some s.ageing.initialHealth
  size : h'.roster.size = h.roster.size + fate.newborns.length
  market : h'.market.candidates =
    h.market.candidates.filter fun c => c.person ∉ fate.spouses

/-- A member who lives on stays in the family, and the dead leave it. -/
theorem filter_of_isAlive {r : Roster} (l : List PersonId) (h : r.isAlive id = true) :
    l.filter (fun x => x ≠ id ∨ r.isAlive id = true) = l := by
  refine List.filter_eq_self.2 fun x _ => ?_
  rw [decide_eq_true_eq]
  exact .inr h

theorem filter_of_dead {r : Roster} (d : Dynasty) (h : r.isAlive id = false) :
    d.family.filter (fun x => x ≠ id ∨ r.isAlive id = true) = (d.leave id).family := by
  refine List.filter_congr fun x _ => ?_
  rw [h]
  simp

theorem filter_not_mem_nil (m : Market) :
    m.candidates.filter (fun c => c.person ∉ ([] : List PersonId)) = m.candidates :=
  List.filter_eq_self.2 fun _ _ => decide_eq_true List.not_mem_nil

/-- A death takes the member out of the family and changes nothing but the crown. -/
theorem brings_of_death (hdeath : fate.isDeath = true) (halive : h.roster.isAlive id = true)
    (hdead : h'.roster.isAlive id = false)
    (htold : events = (fate.deeds h'.roster year id).map (h.event year))
    (hnamed : ∀ x ∈ fate.named, h'.roster.Knows x)
    (hhandover : fate.isHandover = true ↔ h.dynasty.monarch = some id)
    (hmonarch : h'.dynasty.monarch = fate.crown h.dynasty.monarch)
    (hname : h'.dynasty.name = h.dynasty.name)
    (hfamily : h'.dynasty.family = (h.dynasty.leave id).family)
    (hsize : h'.roster.size = h.roster.size) (hmarket : h'.market = h.market) :
    Brings s year id fate h events h' := by
  have hnobody : fate.spouses = [] ∧ fate.newborns = [] := by
    cases fate <;> first | exact ⟨rfl, rfl⟩ | cases hdeath
  have hjoined : fate.joined = [] := by
    unfold Fate.joined
    rw [hnobody.1, hnobody.2]
    rfl
  constructor
  case told => exact htold
  case named => exact hnamed
  case absent =>
    constructor
    · rintro rfl
      cases hdeath
    · intro hbefore
      rw [halive] at hbefore
      cases hbefore
  case died => exact ⟨fun _ => ⟨halive, hdead⟩, fun _ => hdeath⟩
  case handover => exact fun _ => hhandover
  case monarch => exact hmonarch
  case name => exact hname
  case family => rw [hfamily, filter_of_dead _ hdead, hjoined, List.append_nil]
  case joined => rw [hjoined]; exact List.forall_mem_nil _
  case spouses => rw [hnobody.1]; exact List.forall_mem_nil _
  case newborns => rw [hnobody.2]; rfl
  case health => rw [hnobody.2]; exact List.forall_mem_nil _
  case size => rw [hnobody.2]; exact hsize
  case market => rw [hnobody.1, filter_not_mem_nil, hmarket]

/-- A member who lives on stays, and others may join. -/
theorem brings_of_life (hlife : fate.isDeath = false) (hpresent : fate ≠ .absent)
    (halive : h.roster.isAlive id = true) (hlives : h'.roster.isAlive id = true)
    (htold : events = (fate.deeds h'.roster year id).map (h.event year))
    (hnamed : ∀ x ∈ fate.named, h'.roster.Knows x)
    (hmonarch : h'.dynasty.monarch = h.dynasty.monarch)
    (hname : h'.dynasty.name = h.dynasty.name)
    (hfamily : h'.dynasty.family = h.dynasty.family ++ fate.joined)
    (hjoined : ∀ x ∈ fate.joined, h'.roster.isAlive x = true)
    (hspouses : ∀ x ∈ fate.spouses, x ∈ h.market.persons)
    (hnewborns : fate.newborns = h.roster.nextIds fate.newborns.length)
    (hhealth : ∀ x ∈ fate.newborns, h'.roster.healthOf x = some s.ageing.initialHealth)
    (hsize : h'.roster.size = h.roster.size + fate.newborns.length)
    (hmarket : h'.market.candidates =
      h.market.candidates.filter fun c => c.person ∉ fate.spouses) :
    Brings s year id fate h events h' := by
  have hcrown : fate.crown h.dynasty.monarch = h.dynasty.monarch := by
    cases fate <;> first | rfl | cases hlife
  constructor
  case told => exact htold
  case named => exact hnamed
  case absent =>
    constructor
    · intro hfate
      exact absurd hfate hpresent
    · intro hbefore
      rw [halive] at hbefore
      cases hbefore
  case died =>
    constructor
    · intro hdeath
      rw [hlife] at hdeath
      cases hdeath
    · rintro ⟨-, hdead⟩
      rw [hlives] at hdead
      cases hdead
  case handover =>
    intro hdeath
    rw [hlife] at hdeath
    cases hdeath
  case monarch => rw [hcrown, hmonarch]
  case name => exact hname
  case family => rw [hfamily, filter_of_isAlive _ hlives]
  case joined => exact hjoined
  case spouses => exact hspouses
  case newborns => exact hnewborns
  case health => exact hhealth
  case size => exact hsize
  case market => exact hmarket

/-! ## The loss of health -/

theorem Orderly.later (ho : Orderly ids h) (hlater : h.roster.Continues h'.roster)
    (hnumbered : h'.roster.Numbered) (hdynasty : h'.dynasty = h.dynasty)
    (hmarket : h'.market = h.market) : Orderly ids h' where
  numbered := hnumbered
  listed := fun x hx => hlater.knows (ho.listed x hx)
  family := fun x hx => hlater.knows (ho.family x (hdynasty ▸ hx))
  market := fun x hx => hlater.knows (ho.market x (hmarket ▸ hx))
  apart := by
    rw [hdynasty, hmarket]
    exact ho.apart

theorem Orderly.aged (ho : Orderly ids h) (id : PersonId) (loss : Int32) (dice : σ) :
    Orderly ids (h.aged id loss dice) :=
  ho.later (.weaken ..) (ho.numbered.weaken id loss) rfl rfl

/-- What a fate changes is told without the loss of health that came before. -/
theorem Brings.of_aged {loss : Int32} {dice : σ}
    (hb : Brings s year id fate (h.aged id loss dice) events h') :
    Brings s year id fate h events h' := by
  have halive : (h.aged id loss dice).roster.isAlive id = h.roster.isAlive id :=
    Roster.isAlive_weaken ..
  have hsize : (h.aged id loss dice).roster.size = h.roster.size := Roster.size_update ..
  constructor
  case told => exact hb.told
  case named => exact hb.named
  case absent => rw [← halive]; exact hb.absent
  case died => rw [← halive]; exact hb.died
  case handover => exact hb.handover
  case monarch => exact hb.monarch
  case name => exact hb.name
  case family => exact hb.family
  case joined => exact hb.joined
  case spouses => exact hb.spouses
  case newborns =>
    unfold Roster.nextIds
    rw [← hsize]
    exact hb.newborns
  case health => exact hb.health
  case size => rw [← hsize]; exact hb.size
  case market => exact hb.market

/-! ## The ways of a turn -/

section Draws

variable [Dice σ]

/-- Whatever follows ageing brings a fate. -/
theorem Fared.exists_brings (hfared : Fared s year id p h events h') (ho : Orderly ids h)
    (hget : h.roster.get? id = some p) (hliving : p.isAlive = true)
    (hroom : h'.roster.size ≤ 2 ^ 32) : ∃ fate, Brings s year id fate h events h' := by
  have hcontinues := hfared.continues
  have halive : h.roster.isAlive id = true := (Roster.isAlive_of_get? hget).trans hliving
  -- The age that is told is the one in the roster afterwards.
  have hage : p.age year = h'.roster.ageOf year id := by
    unfold Roster.ageOf Person.age
    rw [hcontinues.birthOf ⟨p, hget⟩, Roster.birthOf_of_get? hget,
      Option.isNone_iff_eq_none.1 hliving]
    rfl
  have hdead : (h.roster.kill id year).isAlive id = false :=
    Bool.eq_false_iff.2 fun hlives => ((Roster.isAlive_kill ..).1 hlives).1 rfl
  cases hfared with
  | quiet dice =>
    refine ⟨.quiet, ?_⟩
    apply brings_of_life
    case hlife => rfl
    case hpresent => decide
    case halive => exact halive
    case hlives => exact halive
    case htold => rfl
    case hnamed => exact List.forall_mem_nil _
    case hmonarch => rfl
    case hname => rfl
    case hfamily => exact (List.append_nil _).symm
    case hjoined => exact List.forall_mem_nil _
    case hspouses => exact List.forall_mem_nil _
    case hnewborns => rfl
    case hhealth => exact List.forall_mem_nil _
    case hsize => rfl
    case hmarket => exact (filter_not_mem_nil _).symm
  | died hother =>
    refine ⟨.died, ?_⟩
    apply brings_of_death
    case hdeath => rfl
    case halive => exact halive
    case hdead => exact hdead
    case htold =>
      rw [hage]
      rfl
    case hnamed => exact List.forall_mem_nil _
    case hhandover =>
      constructor
      · intro hhandover
        cases hhandover
      · intro hmonarch
        exact absurd hmonarch hother
    case hmonarch => rfl
    case hname => rfl
    case hfamily => rfl
    case hsize => exact Roster.size_update ..
    case hmarket => rfl
  | @succeeded isKing heir kinship hmonarch hheir =>
    have hheirlives := (Roster.heir?_kin (ho.numbered.kill id year) hheir).1
    refine ⟨.succeeded heir kinship isKing, ?_⟩
    apply brings_of_death
    case hdeath => rfl
    case halive => exact halive
    case hdead => exact (Roster.isAlive_crown ..).trans hdead
    case htold =>
      -- The death is told before the crown is handed over, which changes no name.
      have hname : (h.buried year id).roster.nameOf id =
          ((h.buried year id).crowned heir).roster.nameOf id :=
        ((Roster.Continues.kill _ id year).nameOf hget).trans (hcontinues.nameOf hget).symm
      rw [hage, hname]
      rfl
    case hnamed =>
      exact List.forall_mem_singleton.2
        ((Roster.Continues.crown _ heir).knows (Roster.knows_of_isAlive hheirlives))
    case hhandover => exact ⟨fun _ => hmonarch, fun _ => rfl⟩
    case hmonarch => rfl
    case hname => rfl
    case hfamily => rfl
    case hsize => exact (Roster.size_crown ..).trans (Roster.size_update ..)
    case hmarket => rfl
  | ended isKing hmonarch hheir =>
    refine ⟨.ended isKing, ?_⟩
    apply brings_of_death
    case hdeath => rfl
    case halive => exact halive
    case hdead => exact hdead
    case htold =>
      rw [hage]
      rfl
    case hnamed => exact List.forall_mem_nil _
    case hhandover => exact ⟨fun _ => hmonarch, fun _ => rfl⟩
    case hmonarch => rfl
    case hname => rfl
    case hfamily => rfl
    case hsize => exact Roster.size_update ..
    case hmarket => rfl
  | @married partner dice hgrown hsingle hpartner =>
    have hfree := ((Market.mem_suitable_iff ho.numbered).1 hpartner).1
    have hlives : (h.roster.marry id partner).isAlive partner = true :=
      (Roster.isAlive_marry ..).trans hfree.alive
    -- Nobody on the market is in the family, so the partner comes last.
    have hstranger := (ho.apart partner hfree.candidate).2
    refine ⟨.wed partner, ?_⟩
    apply brings_of_life
    case hlife => rfl
    case hpresent =>
      intro hfate
      cases hfate
    case halive => exact halive
    case hlives => exact (Roster.isAlive_marry ..).trans halive
    case htold =>
      rw [hage]
      rfl
    case hnamed => exact List.forall_mem_singleton.2 (Roster.knows_of_isAlive hlives)
    case hmonarch => exact Dynasty.monarch_join ..
    case hname => exact Dynasty.name_join ..
    case hfamily => exact Dynasty.family_join hstranger
    case hjoined => exact List.forall_mem_singleton.2 hlives
    case hspouses => exact List.forall_mem_singleton.2 hfree.candidate
    case hnewborns => rfl
    case hhealth => exact List.forall_mem_nil _
    case hsize => exact Roster.size_marry ..
    case hmarket =>
      refine List.filter_congr fun c _ => ?_
      simp only [Fate.spouses, List.mem_singleton]
  | @bore father drawn dice hfertile hfather arrival harrival =>
    have hleft : h.roster.size < 2 ^ 32 := by
      change (h.roster.bear arrival id father).size ≤ 2 ^ 32 at hroom
      rw [Roster.size_bear] at hroom
      exact hroom
    have hborn : ∀ {x}, h.roster.isAlive x = true ∨ x = h.roster.nextId →
        (h.roster.bear arrival id father).isAlive x = true :=
      fun hx => (Roster.isAlive_bear_iff hleft).2 hx
    have hchild := hborn (.inr rfl)
    have hfatherlives := hborn (.inl (Roster.livingPartner?_mem hfather).2)
    -- Nobody has had the id of the newborn, so the newborn comes last.
    have hstranger : h.roster.nextId ∉ h.dynasty.family := by
      intro hmember
      exact Roster.not_knows_nextId hleft (ho.family _ hmember)
    refine ⟨.bore h.roster.nextId father, ?_⟩
    apply brings_of_life
    case hlife => rfl
    case hpresent =>
      intro hfate
      cases hfate
    case halive => exact halive
    case hlives => exact hborn (.inl halive)
    case htold => rfl
    case hnamed =>
      exact List.forall_mem_cons.2 ⟨Roster.knows_of_isAlive hchild,
        List.forall_mem_singleton.2 (Roster.knows_of_isAlive hfatherlives)⟩
    case hmonarch => exact Dynasty.monarch_join ..
    case hname => exact Dynasty.name_join ..
    case hfamily => exact Dynasty.family_join hstranger
    case hjoined => exact List.forall_mem_singleton.2 hchild
    case hspouses => exact List.forall_mem_nil _
    case hnewborns => rfl
    case hhealth =>
      refine List.forall_mem_singleton.2 ?_
      rw [harrival]
      exact (Roster.healthOf_addChild ..).trans
        (Roster.healthOf_of_get? (Roster.get?_spawn_nextId hleft _))
    case hsize => exact Roster.size_bear ..
    case hmarket => exact (filter_not_mem_nil _).symm

/-- Every turn brings a fate. -/
theorem Turned.exists_brings (hturned : Turned s year id h events h') (ho : Orderly ids h)
    (hroom : h'.roster.size ≤ 2 ^ 32) : ∃ fate, Brings s year id fate h events h' := by
  cases hturned with
  | gone hdead =>
    refine ⟨.absent, ?_⟩
    constructor
    case told => rfl
    case named => exact List.forall_mem_nil _
    case absent => exact ⟨fun _ => hdead, fun _ => rfl⟩
    case died =>
      constructor
      · intro hdeath
        cases hdeath
      · rintro ⟨halive, -⟩
        rw [hdead] at halive
        cases halive
    case handover =>
      intro hdeath
      cases hdeath
    case monarch => rfl
    case name => rfl
    case family => rw [filter_of_dead _ hdead]; exact (List.append_nil _).symm
    case joined => exact List.forall_mem_nil _
    case spouses => exact List.forall_mem_nil _
    case newborns => rfl
    case health => exact List.forall_mem_nil _
    case size => rfl
    case market => exact (filter_not_mem_nil _).symm
  | aged hget hliving hfared =>
    obtain ⟨fate, hbrings⟩ := hfared.exists_brings (ho.aged id _ _) hget hliving hroom
    exact ⟨fate, hbrings.of_aged⟩

end Draws

end House

end Annals
