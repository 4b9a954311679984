import Mathlib.Data.List.Nodup
import Mathlib.Data.List.Perm.Basic
import Annals.Proofs.Family.Throne
/-!
# Numbers of persons

Each event of a turn stands for one person who comes or goes: a wedding brings somebody into the
family, a birth brings somebody into the family and the roster, and a death is told of somebody who
leaves the family and is dead in the roster from then on.

* `FamilyEvent.isMarriage`, `isBirth`, `isDeath`, `obituary?`: what is counted.
* `Roster.obituaries`: the dead of a roster.
* `Turned.nodup`, `Turned.headcount`: the family is a list of different persons, as many as the
  events tell.
* `Turned.size`, `Turned.obituaries`: the roster grows with the births, and its dead are those of
  whom it was told.
* `Market.Waiting`: whoever is on the market lives and is there once.
-/

namespace Annals

/-! ## What is counted -/

namespace FamilyEvent

/-- Whether a wedding is told. -/
def isMarriage (e : FamilyEvent) : Bool :=
  match e.deed with
  | .marriage .. => true
  | _ => false

/-- Whether a birth is told. -/
def isBirth (e : FamilyEvent) : Bool :=
  match e.deed with
  | .birth .. => true
  | _ => false

/-- Whether a death is told. -/
def isDeath (e : FamilyEvent) : Bool :=
  match e.deed with
  | .death .. => true
  | _ => false

end FamilyEvent

/-- Who has died, when and at which age. -/
structure Obituary where
  name : String
  year : Year
  age : Int32
deriving DecidableEq, Repr

/-- What an event tells of a death. -/
def FamilyEvent.obituary? (e : FamilyEvent) : Option Obituary :=
  match e.deed with
  | .death name age => some { name, year := e.year, age }
  | _ => none

/-- What there is to tell of the death of a person. -/
def Person.obituary? (p : Person) : Option Obituary :=
  p.deathYear.map fun year => { name := p.name, year, age := year - p.birthYear }

/-- The obituaries of the dead, in the order of the roster. -/
def Roster.obituaries (r : Roster) : List Obituary := r.toList.filterMap Person.obituary?

/-! ## Families -/

namespace Dynasty

variable {d : Dynasty} {id : PersonId}

theorem nodup_join (h : d.family.Nodup) (id : PersonId) : (d.join id).family.Nodup := by
  unfold join
  split
  case isTrue => exact h
  case isFalse hnew =>
    have hnew' : id ∉ d.family := by simpa [isMember] using hnew
    refine h.append (List.nodup_singleton id) ?_
    rw [List.disjoint_singleton]
    exact hnew'

/-- Who was no member comes last. -/
theorem family_join (h : id ∉ d.family) : (d.join id).family = d.family ++ [id] := by
  have hnew : d.isMember id = false := by simpa [isMember] using h
  unfold join
  rw [hnew]
  rfl

theorem length_join (h : id ∉ d.family) : (d.join id).family.length = d.family.length + 1 := by
  rw [family_join h]
  exact List.length_append

theorem nodup_leave (h : d.family.Nodup) (id : PersonId) : (d.leave id).family.Nodup := h.filter _

/-- A member who leaves leaves one place. -/
theorem length_leave (h : d.family.Nodup) (hmember : id ∈ d.family) :
    (d.leave id).family.length + 1 = d.family.length := by
  have herase : (d.leave id).family = d.family.erase id := by
    rw [h.erase_eq_filter]
    unfold leave
    exact List.filter_congr fun x _ => decide_not
  rw [herase, List.length_erase_of_mem hmember]
  exact Nat.succ_pred_eq_of_pos (List.length_pos_of_mem hmember)

/-- Who is not a member cannot leave. -/
theorem family_leave_of_not_mem (h : id ∉ d.family) : (d.leave id).family = d.family := by
  refine List.filter_eq_self.2 fun x hx => ?_
  rw [decide_eq_true_eq]
  rintro rfl
  exact h hx

end Dynasty

/-! ## Obituaries -/

namespace Roster

variable {r : Roster} {id : PersonId} {p : Person}

/-- A change of a person happens at one place of the roster. -/
theorem toList_update (h : r.get? id = some p) (f : Person → Person) :
    ∃ before behind, r.toList = before ++ p :: behind ∧
      (r.update id f).toList = before ++ f p :: behind := by
  have hlist : r.toList[id.index.toNat]? = some p := by
    unfold toList
    rw [Array.getElem?_toList]
    exact h
  obtain ⟨hlt, hp⟩ := List.getElem?_eq_some_iff.1 hlist
  obtain ⟨before, q, behind, hsplit, hlength, hmodify⟩ := List.exists_of_modify f hlt
  have hq : q = p := by
    rw [hsplit, ← hlength, List.getElem?_append_right (Nat.le_refl _), Nat.sub_self] at hlist
    exact Option.some.inj hlist
  subst hq
  refine ⟨before, behind, hsplit, ?_⟩
  unfold update toList
  rw [Array.toList_modify]
  exact hmodify

/-- What leaves the deaths of persons alone leaves the obituaries alone. -/
theorem obituaries_update {f : Person → Person} (hf : ∀ p, (f p).obituary? = p.obituary?)
    (r : Roster) (id : PersonId) : (r.update id f).obituaries = r.obituaries := by
  cases hget : r.get? id with
  | none =>
    -- An unknown id changes nobody.
    have hsame : r.persons.modify id.index.toNat f = r.persons := by
      refine Array.ext_getElem? fun i => ?_
      rw [Array.getElem?_modify]
      split
      case isTrue hi =>
        rw [← hi, show r.persons[id.index.toNat]? = none from hget]
        rfl
      case isFalse => rfl
    unfold update
    rw [hsame]
  | some p =>
    obtain ⟨before, behind, hbefore, hafter⟩ := toList_update hget f
    unfold obituaries
    rw [hbefore, hafter, List.filterMap_append, List.filterMap_append, List.filterMap_cons,
      List.filterMap_cons, hf]

theorem obituaries_weaken (r : Roster) (id : PersonId) (loss : Int32) :
    (r.weaken id loss).obituaries = r.obituaries :=
  obituaries_update (f := weakened loss) (fun _ => rfl) r id

theorem obituaries_crown (r : Roster) (id : PersonId) : (r.crown id).obituaries = r.obituaries :=
  obituaries_update (f := withCrown) (fun _ => rfl) r id

theorem obituaries_marry (r : Roster) (a b : PersonId) :
    (r.marry a b).obituaries = r.obituaries := by
  have hpartner : ∀ c p, (addPartner c p).obituary? = p.obituary? := by
    intro c p
    unfold addPartner
    split <;> rfl
  exact (obituaries_update (hpartner a) _ b).trans (obituaries_update (hpartner b) r a)

/-- Whoever arrives lives. -/
theorem obituaries_spawn (r : Roster) (a : Arrival) : (r.spawn a).2.obituaries = r.obituaries := by
  unfold obituaries toList spawn
  rw [Array.toList_push, List.filterMap_append]
  exact List.append_nil _

theorem obituaries_bear (r : Roster) (a : Arrival) (mother father : PersonId) :
    (r.bear a mother father).obituaries = r.obituaries := by
  have hchild : ∀ p, (withChild r.nextId p).obituary? = p.obituary? := fun _ => rfl
  have hparents : ∀ p, (withParents mother father p).obituary? = p.obituary? := fun _ => rfl
  unfold bear
  rw [addChild_eq, obituaries_update hparents, obituaries_update hchild, obituaries_update hchild,
    obituaries_spawn]

/-- A death adds one obituary. -/
theorem obituaries_kill (hget : r.get? id = some p) (halive : p.isAlive = true) (year : Year) :
    (r.kill id year).obituaries.Perm
      (r.obituaries ++ [{ name := p.name, year, age := year - p.birthYear }]) := by
  have hliving : p.deathYear = none := Option.isNone_iff_eq_none.1 halive
  obtain ⟨before, behind, hbefore, hafter⟩ := toList_update hget (deceased year)
  have hold : p.obituary? = none := by
    unfold Person.obituary?
    rw [hliving]
    rfl
  have hnew : (deceased year p).obituary? =
      some { name := p.name, year, age := year - p.birthYear } := by
    unfold Person.obituary? deceased
    rw [hliving]
    rfl
  change (r.kill id year).toList = _ at hafter
  unfold obituaries
  rw [hbefore, hafter, List.filterMap_append, List.filterMap_append, List.filterMap_cons_none hold,
    List.filterMap_cons_some hnew]
  exact List.perm_middle.trans (List.perm_append_singleton ..).symm

theorem size_withCouple (r : Roster) (king queen : Arrival) :
    (r.withCouple king queen).size = r.size + 2 := by
  unfold withCouple
  rw [size_crown, size_marry, size_spawn, size_spawn]

theorem obituaries_withCouple (r : Roster) (king queen : Arrival) :
    (r.withCouple king queen).obituaries = r.obituaries := by
  unfold withCouple
  rw [obituaries_crown, obituaries_marry, obituaries_spawn, obituaries_spawn]

end Roster

/-! ## Turns -/

namespace House

/-- A burial leaves the obituary that is told. -/
theorem obituaries_buried {σ : Type} {h : House σ} (year : Year) {id : PersonId} {p : Person}
    (hget : h.roster.get? id = some p) (halive : p.isAlive = true) :
    (h.buried year id).roster.obituaries.Perm (h.roster.obituaries ++
      [{ name := (h.buried year id).roster.nameOf id, year, age := p.age year }]) := by
  -- The name is looked up after the burial, which leaves it as it was.
  have hname : (h.buried year id).roster.nameOf id = p.name := by
    refine ((Roster.Continues.kill h.roster id year).nameOf hget).trans ?_
    unfold Roster.nameOf
    rw [hget]
  have hage : p.age year = year - p.birthYear := by
    unfold Person.age
    rw [Option.isNone_iff_eq_none.1 halive]
    rfl
  rw [hname, hage]
  exact Roster.obituaries_kill hget halive year

section Turns

variable {σ : Type} [Dice σ] {s : FamilySettings} {year : Year} {id : PersonId} {p : Person}
  {h h' : House σ} {events : List FamilyEvent}

theorem Turned.nodup (hturned : Turned s year id h events h') (hnodup : h.dynasty.family.Nodup) :
    h'.dynasty.family.Nodup := by
  cases hturned with
  | gone hdead => exact Dynasty.nodup_leave hnodup id
  | aged hget halive hfared =>
    have hburied := Dynasty.nodup_leave hnodup id
    cases hfared with
    | quiet dice => exact hnodup
    | died hother => exact hburied
    | succeeded isKing hmonarch hheir => exact hburied
    | ended isKing hmonarch hheir => exact hburied
    | married dice hgrown hsingle hpartner => exact Dynasty.nodup_join hnodup _
    | bore drawn dice hfertile hfather arrival harrival => exact Dynasty.nodup_join hnodup _

/-- The roster grows by the newborn. -/
theorem Turned.size (hturned : Turned s year id h events h') :
    h'.roster.size = h.roster.size + events.countP FamilyEvent.isBirth := by
  cases hturned with
  | gone hdead => rfl
  | @aged p loss dice _ _ hget halive hfared =>
    have haged : (h.roster.weaken id loss).size = h.roster.size := Roster.size_update ..
    have hburied : ((h.roster.weaken id loss).kill id year).size = h.roster.size :=
      (Roster.size_update ..).trans haged
    cases hfared with
    | quiet dice => exact haged
    | died hother => exact hburied
    | succeeded isKing hmonarch hheir => exact (Roster.size_crown ..).trans hburied
    | ended isKing hmonarch hheir => exact hburied
    | married dice hgrown hsingle hpartner => exact (Roster.size_marry ..).trans haged
    | bore drawn dice hfertile hfather arrival harrival =>
      exact (Roster.size_bear ..).trans (congrArg (· + 1) haged)

/-- The dead of a turn are those of whom it was told. -/
theorem Turned.obituaries (hturned : Turned s year id h events h') :
    h'.roster.obituaries.Perm
      (h.roster.obituaries ++ events.filterMap FamilyEvent.obituary?) := by
  cases hturned with
  | gone hdead =>
    rw [List.filterMap_nil, List.append_nil]
  | @aged p loss dice _ _ hget halive hfared =>
    have haged : (h.aged id loss dice).roster.obituaries = h.roster.obituaries :=
      Roster.obituaries_weaken ..
    have hburied := obituaries_buried year hget halive
    rw [haged] at hburied
    -- Without a death nothing is added.
    have hkept : ∀ {r' : Roster}, r'.obituaries = h.roster.obituaries →
        r'.obituaries.Perm (h.roster.obituaries ++ []) := by
      intro r' hr'
      rw [hr', List.append_nil]
    cases hfared with
    | quiet dice => exact hkept haged
    | died hother => exact hburied
    | succeeded isKing hmonarch hheir =>
      refine .trans (.of_eq ?_) hburied
      exact Roster.obituaries_crown ..
    | ended isKing hmonarch hheir => exact hburied
    | married dice hgrown hsingle hpartner =>
      exact hkept ((Roster.obituaries_marry ..).trans haged)
    | bore drawn dice hfertile hfather arrival harrival =>
      exact hkept ((Roster.obituaries_bear ..).trans haged)

/-- A turn takes the life of nobody else. -/
theorem Turned.isAlive_of_ne (hturned : Turned s year id h events h') {x : PersonId} (hne : x ≠ id)
    (hx : h.roster.isAlive x = true) : h'.roster.isAlive x = true := by
  cases hturned with
  | gone hdead => exact hx
  | @aged p loss dice _ _ hget halive hfared =>
    have haged : (h.roster.weaken id loss).isAlive x = true :=
      (Roster.isAlive_weaken ..).trans hx
    have hburied : ((h.roster.weaken id loss).kill id year).isAlive x = true :=
      (Roster.isAlive_kill ..).2 ⟨hne, haged⟩
    cases hfared with
    | quiet dice => exact haged
    | died hother => exact hburied
    | succeeded isKing hmonarch hheir => exact (Roster.isAlive_crown ..).trans hburied
    | ended isKing hmonarch hheir => exact hburied
    | married dice hgrown hsingle hpartner => exact (Roster.isAlive_marry ..).trans haged
    | bore drawn dice hfertile hfather arrival harrival =>
      obtain ⟨q, hq, halive⟩ := Roster.exists_of_isAlive haged
      refine (Roster.isAlive_addChild ..).trans ?_
      exact (Roster.isAlive_of_get? (Roster.get?_spawn_of_some hq arrival)).trans halive

end Turns

end House

section Houses

variable {σ : Type} {home : PersonId → Option PersonId} {before behind : List Dynasty}
  {s : FamilySettings} {year : Year} {id : PersonId} {h h' : House σ} {events : List FamilyEvent}

/-- Nobody on the market is a member. -/
theorem Settled.not_mem_family (hs : Settled home (before ++ h.dynasty :: behind) h.roster h.market)
    {x : PersonId} (hx : home x = none) : x ∉ h.dynasty.family := by
  intro hmem
  rw [hs.home_member hmem] at hx
  cases hx

/-- A family grows with the weddings and the births, and gets smaller with the deaths. -/
theorem House.Turned.headcount [Dice σ] (hturned : House.Turned s year id h events h')
    (hmember : h.roster.isAlive id = true → id ∈ h.dynasty.family) (hr : h.roster.Numbered)
    (hs : Settled home (before ++ h.dynasty :: behind) h.roster h.market)
    (hsize : h'.roster.size ≤ 2 ^ 32) (hnodup : h.dynasty.family.Nodup) :
    h'.dynasty.family.length + events.countP FamilyEvent.isDeath =
      h.dynasty.family.length + events.countP FamilyEvent.isMarriage +
        events.countP FamilyEvent.isBirth := by
  cases hturned with
  | gone hdead =>
    -- The dead have left the family before.
    have hgone : id ∉ h.dynasty.family := by
      intro hmem
      have halive := ((hs.living_self id).1 hmem).1
      rw [hdead] at halive
      cases halive
    exact congrArg List.length (Dynasty.family_leave_of_not_mem hgone)
  | @aged p loss dice _ _ hget halive hfared =>
    have hin := mem_family_of_aged hmember hget halive
    have hburied : (h.dynasty.leave id).family.length + 1 = h.dynasty.family.length :=
      Dynasty.length_leave hnodup hin
    cases hfared with
    | quiet dice => rfl
    | died hother => exact hburied
    | succeeded isKing hmonarch hheir => exact hburied
    | ended isKing hmonarch hheir => exact hburied
    | married dice hgrown hsingle hpartner =>
      -- The partner comes from the market, where no member is.
      have hmarket := ((Market.mem_suitable (hr.weaken id loss)).1 hpartner).1
      exact Dynasty.length_join (hs.not_mem_family (hs.homes.market _ hmarket).1)
    | bore drawn dice hfertile hfather arrival harrival =>
      -- The child has an id of its own, since ids are left.
      have hs' := hs.aged id loss dice
      have hroom : (h.aged id loss dice).roster.size < 2 ^ 32 := by
        change ((h.aged id loss _).roster.bear arrival id _).size ≤ 2 ^ 32 at hsize
        rw [Roster.size_bear] at hsize
        exact hsize
      exact Dynasty.length_join (hs'.not_mem_family (hs'.home_nextId hroom))

end Houses

/-! ## The market -/

namespace Market

variable {m : Market} {r : Roster}

/-- Whoever is on the market lives and is there once. -/
structure Waiting (m : Market) (r : Roster) : Prop where
  once : m.persons.Nodup
  alive : ∀ x ∈ m.persons, r.isAlive x = true

theorem waiting_empty (r : Roster) : empty.Waiting r :=
  ⟨List.nodup_nil, List.forall_mem_nil _⟩

theorem persons_expire_sublist (m : Market) (r : Roster) :
    List.Sublist (m.expire r).persons m.persons := by
  unfold persons expire
  rw [List.map_map]
  exact List.filter_sublist.map _

theorem Waiting.expire (h : m.Waiting r) : (m.expire r).Waiting r :=
  ⟨h.once.sublist (m.persons_expire_sublist r), fun x hx => h.alive x (m.persons_expire r hx)⟩

/-- As long as ids are left, whoever arrives can go to the market. -/
theorem Waiting.arrive (h : m.Waiting r) (hnew : r.nextId ∉ m.persons) (hsize : r.size < 2 ^ 32)
    (a : Roster.Arrival) (years : UInt32) : (m.add r.nextId years).Waiting (r.spawn a).2 := by
  have hpersons : (m.add r.nextId years).persons = m.persons ++ [r.nextId] := List.map_append
  constructor
  · rw [hpersons]
    refine h.once.append (List.nodup_singleton _) ?_
    rw [List.disjoint_singleton]
    exact hnew
  · intro x hx
    rw [hpersons, List.mem_append, List.mem_singleton] at hx
    exact (Roster.isAlive_spawn_iff hsize).2 (hx.imp_left (h.alive x))

/-- A turn leaves the market as it is, but for somebody who marries. -/
theorem sublist_turned {σ : Type} [Dice σ] {s : FamilySettings} {year : Year} {id : PersonId}
    {h h' : House σ} {events : List FamilyEvent} (hturned : House.Turned s year id h events h') :
    List.Sublist h'.market.persons h.market.persons := by
  cases hturned with
  | gone hdead => exact .refl _
  | aged hget halive hfared =>
    cases hfared with
    | married dice hgrown hsingle hpartner => exact List.filter_sublist.map _
    | quiet dice => exact .refl _
    | died hother => exact .refl _
    | succeeded isKing hmonarch hheir => exact .refl _
    | ended isKing hmonarch hheir => exact .refl _
    | bore drawn dice hfertile hfather arrival harrival => exact .refl _

theorem Waiting.turned {σ : Type} [Dice σ] {s : FamilySettings} {year : Year} {id : PersonId}
    {h h' : House σ} {events : List FamilyEvent} (hturned : House.Turned s year id h events h')
    (hm : h.market.Waiting h.roster) (hid : id ∉ h.market.persons) :
    h'.market.Waiting h'.roster := by
  have hsub := sublist_turned hturned
  refine ⟨hm.once.sublist hsub, fun x hx => ?_⟩
  have hbefore := hsub.subset hx
  refine hturned.isAlive_of_ne ?_ (hm.alive x hbefore)
  rintro rfl
  exact hid hbefore

end Market

end Annals
