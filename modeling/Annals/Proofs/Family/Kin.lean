import Mathlib.Algebra.Group.Nat.Defs
import Annals.Family.Roster
/-!
# What a roster tells of an id

A roster is looked at through its ids: who the partners, the children and the parents of an id are,
of which gender it is and whether it lives. Each change of a roster is described by what it does to
these.

* `Roster.partnersOf`, `childrenOf`, `parentsOf`, `genderOf`: the links and the gender of an id.
* `Roster.Numbered`: every person has the id of the place.
* `Roster.Continues`: everyone is still there, as the same person; every change keeps this.
* `Roster.SameLinks`: nobody has got or lost partners, children or parents.
* `get?_marry`, `get?_bear`: whom a marriage and a birth change, and how.
-/

namespace Annals

namespace Roster

variable {r : Roster}

/-! ## One person -/

theorem get?_update (r : Roster) (id : PersonId) (f : Person → Person) (x : PersonId) :
    (r.update id f).get? x = if x = id then (r.get? x).map f else r.get? x := by
  have hplace : id.index.toNat = x.index.toNat ↔ x = id := by
    constructor
    · intro h
      have hindex : id.index = x.index := UInt32.toNat_inj.1 h
      cases id
      cases x
      exact congrArg PersonId.mk hindex.symm
    · rintro rfl
      rfl
  unfold get? update
  rw [Array.getElem?_modify]
  by_cases h : x = id
  · rw [if_pos h, if_pos (hplace.2 h)]
  · rw [if_neg h, if_neg (fun heq => h (hplace.1 heq))]

@[simp] theorem get?_update_self (r : Roster) (id : PersonId) (f : Person → Person) :
    (r.update id f).get? id = (r.get? id).map f := by
  rw [get?_update, if_pos rfl]

theorem get?_update_ne {id x : PersonId} (h : x ≠ id) (r : Roster) (f : Person → Person) :
    (r.update id f).get? x = r.get? x := by
  rw [get?_update, if_neg h]

/-- What a change of persons leaves alone is the same for every id. -/
theorem update_frame {α : Type} {f : Person → Person} (view : Option Person → α)
    (hview : ∀ p, view (some (f p)) = view (some p)) (r : Roster) (id x : PersonId) :
    view ((r.update id f).get? x) = view (r.get? x) := by
  rw [get?_update]
  split
  · cases r.get? x with
    | none => rfl
    | some p => exact hview p
  · rfl

@[simp] theorem size_update (r : Roster) (id : PersonId) (f : Person → Person) :
    (r.update id f).size = r.size := Array.size_modify

@[simp] theorem size_spawn (r : Roster) (a : Arrival) : (r.spawn a).2.size = r.size + 1 :=
  Array.size_push _

theorem index_lt_size {id : PersonId} {p : Person} (h : r.get? id = some p) :
    id.index.toNat < r.size := (Array.getElem?_eq_some_iff.1 h).1

theorem toNat_nextId (h : r.size < 2 ^ 32) : r.nextId.index.toNat = r.size :=
  UInt32.toNat_ofNat_of_lt' h

/-- As long as ids are left, nobody has the next one. -/
theorem get?_nextId (h : r.size < 2 ^ 32) : r.get? r.nextId = none := by
  unfold get?
  rw [toNat_nextId h]
  exact Array.getElem?_eq_none (Nat.le_refl _)

/-- An arrival leaves everyone else alone. -/
theorem get?_spawn_of_some {id : PersonId} {p : Person} (h : r.get? id = some p) (a : Arrival) :
    (r.spawn a).2.get? id = some p := by
  have hlt : id.index.toNat ≠ r.persons.size := Nat.ne_of_lt (index_lt_size h)
  show (r.persons.push _)[id.index.toNat]? = some p
  rw [Array.getElem?_push, if_neg hlt]
  exact h

/-- After an arrival an id stands for whom it stood before, or it is the next one and stands for
the newcomer. -/
theorem get?_spawn_cases (r : Roster) (a : Arrival) (x : PersonId) :
    (r.spawn a).2.get? x = r.get? x ∨
      (x = r.nextId ∧ r.get? x = none ∧ (r.spawn a).2.get? x = some (a.person r.nextId)) := by
  by_cases hplace : x.index.toNat = r.persons.size
  · right
    have hnext : x = r.nextId := by
      have hindex : x.index = UInt32.ofNat r.persons.size := by
        rw [← hplace, UInt32.ofNat_toNat]
      cases x
      exact congrArg PersonId.mk hindex
    have hlt : r.size < 2 ^ 32 := by
      show r.persons.size < 2 ^ 32
      rw [← hplace]
      exact UInt32.toNat_lt x.index
    refine ⟨hnext, ?_, ?_⟩
    · rw [hnext]
      exact get?_nextId hlt
    · show (r.persons.push _)[x.index.toNat]? = _
      rw [Array.getElem?_push, if_pos hplace]
  · left
    show (r.persons.push _)[x.index.toNat]? = _
    rw [Array.getElem?_push, if_neg hplace]
    rfl

/-- As long as ids are left, an arrival takes the next one. -/
theorem get?_spawn (h : r.size < 2 ^ 32) (a : Arrival) (x : PersonId) :
    (r.spawn a).2.get? x = if x = r.nextId then some (a.person r.nextId) else r.get? x := by
  split
  case isTrue hnext =>
    subst hnext
    rcases get?_spawn_cases r a r.nextId with hsame | ⟨-, -, hnew⟩
    · -- The place of the next id is behind all others, so somebody is there now.
      have hplace : (r.spawn a).2.get? r.nextId = some (a.person r.nextId) := by
        show (r.persons.push _)[r.nextId.index.toNat]? = _
        rw [toNat_nextId h]
        exact Array.getElem?_push_size
      exact hplace
    · exact hnew
  case isFalse hnext =>
    rcases get?_spawn_cases r a x with hsame | ⟨heq, -, -⟩
    · exact hsame
    · exact absurd heq hnext

theorem get?_spawn_nextId (h : r.size < 2 ^ 32) (a : Arrival) :
    (r.spawn a).2.get? r.nextId = some (a.person r.nextId) := by
  rw [get?_spawn h, if_pos rfl]

/-- Somebody has the id of an arrival, if only an earlier person. -/
theorem exists_nextId (r : Roster) (a : Arrival) : ∃ p, (r.spawn a).2.get? r.nextId = some p := by
  have hle : r.nextId.index.toNat ≤ r.size := by
    show (UInt32.ofNat r.size).toNat ≤ r.size
    rw [UInt32.toNat_ofNat']
    exact Nat.mod_le ..
  have hlt : r.nextId.index.toNat < (r.spawn a).2.persons.size := by
    show r.nextId.index.toNat < (r.persons.push _).size
    rw [Array.size_push]
    exact Nat.lt_succ_of_le hle
  exact ⟨_, Array.getElem?_eq_getElem hlt⟩

/-! ## Ids -/

/-- Every person has the id of the place. -/
def Numbered (r : Roster) : Prop :=
  ∀ (i : Nat) (p : Person), r.persons[i]? = some p → p.id = { index := UInt32.ofNat i }

theorem Numbered.id_eq (h : r.Numbered) {id : PersonId} {p : Person} (hp : r.get? id = some p) :
    p.id = id := by
  rw [h _ _ hp, UInt32.ofNat_toNat]

theorem numbered_empty : empty.Numbered := by
  intro i p hp
  cases hp

theorem Numbered.update (h : r.Numbered) {f : Person → Person} (hf : ∀ p, (f p).id = p.id)
    (id : PersonId) : (r.update id f).Numbered := by
  intro i p hp
  change (r.persons.modify _ f)[i]? = some p at hp
  rw [Array.getElem?_modify] at hp
  split at hp
  · obtain ⟨q, hq, rfl⟩ := Option.map_eq_some_iff.1 hp
    rw [hf]
    exact h i q hq
  · exact h i p hp

theorem Numbered.spawn (h : r.Numbered) (a : Arrival) : (r.spawn a).2.Numbered := by
  intro i p hp
  change (r.persons.push _)[i]? = some p at hp
  rw [Array.getElem?_push] at hp
  split at hp
  case isTrue hi =>
    cases hp
    rw [hi]
    rfl
  case isFalse hi => exact h i p hp

/-! ## Links -/

/-- The present and former partners of an id, in the order of the marriages. -/
def partnersOf (r : Roster) (id : PersonId) : List PersonId :=
  ((r.get? id).map Person.partners).getD []

/-- The children of an id. -/
def childrenOf (r : Roster) (id : PersonId) : List PersonId :=
  ((r.get? id).map Person.children).getD []

/-- Mother and father of an id. -/
def parentsOf (r : Roster) (id : PersonId) : Option (PersonId × PersonId) :=
  (r.get? id).bind Person.parents

/-- The gender of an id; nothing when nobody has the id. -/
def genderOf (r : Roster) (id : PersonId) : Option Gender := (r.get? id).map Person.gender

theorem partnersOf_of_get? {id : PersonId} {p : Person} (h : r.get? id = some p) :
    r.partnersOf id = p.partners := by
  unfold partnersOf
  rw [h]
  rfl

theorem childrenOf_of_get? {id : PersonId} {p : Person} (h : r.get? id = some p) :
    r.childrenOf id = p.children := by
  unfold childrenOf
  rw [h]
  rfl

theorem parentsOf_of_get? {id : PersonId} {p : Person} (h : r.get? id = some p) :
    r.parentsOf id = p.parents := by
  unfold parentsOf
  rw [h]
  rfl

theorem genderOf_of_get? {id : PersonId} {p : Person} (h : r.get? id = some p) :
    r.genderOf id = some p.gender := by
  unfold genderOf
  rw [h]
  rfl

theorem isAlive_of_get? {id : PersonId} {p : Person} (h : r.get? id = some p) :
    r.isAlive id = p.isAlive := by
  unfold isAlive
  rw [h]
  rfl

/-- The living are in the roster. -/
theorem exists_of_isAlive {id : PersonId} (h : r.isAlive id = true) :
    ∃ p, r.get? id = some p ∧ p.isAlive = true := by
  cases hp : r.get? id with
  | none =>
    unfold isAlive at h
    rw [hp] at h
    cases h
  | some p => exact ⟨p, rfl, (isAlive_of_get? hp).symm.trans h⟩

/-- Whoever has a gender is in the roster. -/
theorem exists_of_genderOf {id : PersonId} {g : Gender} (h : r.genderOf id = some g) :
    ∃ p, r.get? id = some p ∧ p.gender = g := Option.map_eq_some_iff.1 h

/-- Nobody beyond the last place has a gender. -/
theorem genderOf_nextId (h : r.size < 2 ^ 32) : r.genderOf r.nextId = none := by
  unfold genderOf
  rw [get?_nextId h]
  rfl

end Roster

/-! ## Later rosters -/

/-- The same person at a later time. -/
structure Person.Becomes (p q : Person) : Prop where
  id : q.id = p.id
  name : q.name = p.name
  gender : q.gender = p.gender
  birthYear : q.birthYear = p.birthYear
  faction : q.faction = p.faction
  region : q.region = p.region
  deathYear : ∀ year, p.deathYear = some year → q.deathYear = some year

theorem Person.Becomes.refl (p : Person) : p.Becomes p :=
  ⟨rfl, rfl, rfl, rfl, rfl, rfl, fun _ h => h⟩

theorem Person.Becomes.trans {p q s : Person} (h : p.Becomes q) (h' : q.Becomes s) :
    p.Becomes s :=
  ⟨h'.id.trans h.id, h'.name.trans h.name, h'.gender.trans h.gender,
    h'.birthYear.trans h.birthYear, h'.faction.trans h.faction, h'.region.trans h.region,
    fun year hdeath => h'.deathYear year (h.deathYear year hdeath)⟩

/-- Who lives later has lived before. -/
theorem Person.Becomes.isAlive {p q : Person} (h : p.Becomes q) (hq : q.isAlive = true) :
    p.isAlive = true := by
  cases hdeath : p.deathYear with
  | none =>
    unfold Person.isAlive
    rw [hdeath]
    rfl
  | some year =>
    unfold Person.isAlive at hq
    rw [h.deathYear year hdeath] at hq
    cases hq

namespace Roster

variable {r r' r'' : Roster}

/-- Everyone is still there, as the same person, and nobody has been forgotten. -/
structure Continues (r r' : Roster) : Prop where
  size_le : r.size ≤ r'.size
  stays : ∀ {id p}, r.get? id = some p → ∃ q, r'.get? id = some q ∧ p.Becomes q

namespace Continues

theorem refl (r : Roster) : r.Continues r := ⟨Nat.le_refl _, fun h => ⟨_, h, .refl _⟩⟩

theorem trans (h : r.Continues r') (h' : r'.Continues r'') : r.Continues r'' := by
  refine ⟨Nat.le_trans h.size_le h'.size_le, fun hp => ?_⟩
  obtain ⟨q, hq, hbecomes⟩ := h.stays hp
  obtain ⟨s, hs, hlater⟩ := h'.stays hq
  exact ⟨s, hs, hbecomes.trans hlater⟩

theorem update {f : Person → Person} (hf : ∀ p : Person, p.Becomes (f p)) (r : Roster)
    (id : PersonId) : r.Continues (r.update id f) := by
  refine ⟨Nat.le_of_eq (size_update ..).symm, @fun x p hp => ?_⟩
  rw [get?_update, hp]
  split
  · exact ⟨f p, rfl, hf p⟩
  · exact ⟨p, rfl, .refl p⟩

theorem spawn (r : Roster) (a : Arrival) : r.Continues (r.spawn a).2 := by
  refine ⟨?_, fun hp => ⟨_, get?_spawn_of_some hp a, .refl _⟩⟩
  rw [size_spawn]
  exact Nat.le_succ _

theorem genderOf (h : r.Continues r') {id : PersonId} {g : Gender}
    (hg : r.genderOf id = some g) : r'.genderOf id = some g := by
  obtain ⟨p, hp, rfl⟩ := exists_of_genderOf hg
  obtain ⟨q, hq, hbecomes⟩ := h.stays hp
  rw [genderOf_of_get? hq, hbecomes.gender]

/-- The dead stay dead. -/
theorem isAlive (h : r.Continues r') {id : PersonId} {g : Gender} (hg : r.genderOf id = some g)
    (halive : r'.isAlive id = true) : r.isAlive id = true := by
  obtain ⟨p, hp, -⟩ := exists_of_genderOf hg
  obtain ⟨q, hq, hbecomes⟩ := h.stays hp
  rw [isAlive_of_get? hq] at halive
  rw [isAlive_of_get? hp]
  exact hbecomes.isAlive halive

theorem nameOf (h : r.Continues r') {id : PersonId} {p : Person} (hp : r.get? id = some p) :
    r'.nameOf id = r.nameOf id := by
  obtain ⟨q, hq, hbecomes⟩ := h.stays hp
  unfold Roster.nameOf
  rw [hp, hq]
  exact hbecomes.name

end Continues

/-- Nobody has got or lost partners, children or parents. -/
structure SameLinks (r r' : Roster) : Prop where
  partners : ∀ id, r'.partnersOf id = r.partnersOf id
  children : ∀ id, r'.childrenOf id = r.childrenOf id
  parents : ∀ id, r'.parentsOf id = r.parentsOf id

/-- A change that leaves the links of a person alone. -/
structure KeepsLinks (f : Person → Person) : Prop where
  partners : ∀ p, (f p).partners = p.partners
  children : ∀ p, (f p).children = p.children
  parents : ∀ p, (f p).parents = p.parents

theorem SameLinks.update {f : Person → Person} (hf : KeepsLinks f) (r : Roster) (id : PersonId) :
    r.SameLinks (r.update id f) where
  partners := update_frame (fun o => (o.map Person.partners).getD []) hf.partners r id
  children := update_frame (fun o => (o.map Person.children).getD []) hf.children r id
  parents := update_frame (fun o => o.bind Person.parents) hf.parents r id

/-- A newcomer has no links. -/
theorem SameLinks.spawn (r : Roster) (a : Arrival) : r.SameLinks (r.spawn a).2 := by
  have hview : ∀ {α : Type} (view : Option Person → α),
      view (some (a.person r.nextId)) = view none →
      ∀ x, view ((r.spawn a).2.get? x) = view (r.get? x) := by
    intro α view hnone x
    rcases get?_spawn_cases r a x with hsame | ⟨-, hold, hnew⟩
    · rw [hsame]
    · rw [hold, hnew, hnone]
  exact ⟨hview (fun o => (o.map Person.partners).getD []) rfl,
    hview (fun o => (o.map Person.children).getD []) rfl,
    hview (fun o => o.bind Person.parents) rfl⟩

/-! ## Marriages -/

theorem becomes_addPartner (partner : PersonId) (p : Person) :
    p.Becomes (addPartner partner p) := by
  unfold addPartner
  split
  · exact .refl p
  · exact ⟨rfl, rfl, rfl, rfl, rfl, rfl, fun _ h => h⟩

theorem Continues.marry (r : Roster) (a b : PersonId) : r.Continues (r.marry a b) :=
  (update (becomes_addPartner b) r a).trans (update (becomes_addPartner a) _ b)

theorem Numbered.marry (h : r.Numbered) (a b : PersonId) : (r.marry a b).Numbered :=
  (h.update (fun p => (becomes_addPartner b p).id) a).update
    (fun p => (becomes_addPartner a p).id) b

/-- Whoever is not yet a partner is added at the end of the list. -/
theorem addPartner_of_not_mem {partner : PersonId} {p : Person} (hnew : partner ∉ p.partners) :
    addPartner partner p = { p with partners := p.partners ++ [partner] } := by
  have hcontains : p.partners.contains partner = false := by simpa using hnew
  unfold addPartner
  rw [hcontains]
  rfl

/-- A marriage of two persons, of whom neither is a partner of the other, adds each of them at the
end of the other's partners and changes nobody else. -/
theorem get?_marry {a b : PersonId} {p q : Person} (ha : r.get? a = some p)
    (hb : r.get? b = some q) (hne : a ≠ b) (hab : b ∉ p.partners) (hba : a ∉ q.partners)
    (x : PersonId) :
    (r.marry a b).get? x =
      if x = a then some { p with partners := p.partners ++ [b] }
      else if x = b then some { q with partners := q.partners ++ [a] }
      else r.get? x := by
  unfold marry
  by_cases hxa : x = a
  · subst hxa
    rw [if_pos rfl, get?_update_ne hne, get?_update_self, ha, Option.map_some,
      addPartner_of_not_mem hab]
  · rw [if_neg hxa]
    by_cases hxb : x = b
    · subst hxb
      rw [if_pos rfl, get?_update_self, get?_update_ne hxa, hb, Option.map_some,
        addPartner_of_not_mem hba]
    · rw [if_neg hxb, get?_update_ne hxb, get?_update_ne hxa]

theorem partnersOf_marry {a b : PersonId} {p q : Person} (ha : r.get? a = some p)
    (hb : r.get? b = some q) (hne : a ≠ b) (hab : b ∉ r.partnersOf a) (hba : a ∉ r.partnersOf b)
    (x : PersonId) :
    (r.marry a b).partnersOf x =
      if x = a then r.partnersOf a ++ [b] else if x = b then r.partnersOf b ++ [a]
      else r.partnersOf x := by
  rw [partnersOf_of_get? ha] at hab ⊢
  rw [partnersOf_of_get? hb] at hba ⊢
  unfold partnersOf
  rw [get?_marry ha hb hne hab hba]
  by_cases hxa : x = a
  · rw [if_pos hxa, if_pos hxa]
    rfl
  · rw [if_neg hxa, if_neg hxa]
    split <;> rfl

/-- What does not look at partners is the same after a marriage. -/
theorem marry_frame {α : Type} (view : Option Person → α)
    (hview : ∀ (p : Person) (partners : List PersonId),
      view (some { p with partners }) = view (some p))
    (r : Roster) (a b x : PersonId) : view ((r.marry a b).get? x) = view (r.get? x) := by
  have hkeeps : ∀ (c : PersonId) (p : Person), view (some (addPartner c p)) = view (some p) := by
    intro c p
    unfold addPartner
    split
    · rfl
    · exact hview p _
  have hfirst := update_frame view (hkeeps b) r a x
  exact (update_frame view (hkeeps a) (r.update a (addPartner b)) b x).trans hfirst

theorem childrenOf_marry (r : Roster) (a b x : PersonId) :
    (r.marry a b).childrenOf x = r.childrenOf x :=
  marry_frame (fun o => (o.map Person.children).getD []) (fun _ _ => rfl) r a b x

theorem parentsOf_marry (r : Roster) (a b x : PersonId) :
    (r.marry a b).parentsOf x = r.parentsOf x :=
  marry_frame (fun o => o.bind Person.parents) (fun _ _ => rfl) r a b x

/-! ## Births -/

/-- A person with one more child. -/
def withChild (child : PersonId) (p : Person) : Person :=
  { p with children := p.children ++ [child] }

/-- A person whose parents are known. -/
def withParents (mother father : PersonId) (p : Person) : Person :=
  { p with parents := some (mother, father) }

theorem addChild_eq (r : Roster) (mother father child : PersonId) :
    r.addChild mother father child =
      ((r.update mother (withChild child)).update father (withChild child)).update child
        (withParents mother father) := rfl

/-- What does not look at children and parents is the same after a child has been noted. -/
theorem addChild_frame {α : Type} (view : Option Person → α)
    (hview : ∀ (p : Person) (children : List PersonId) (parents : Option (PersonId × PersonId)),
      view (some { p with children, parents }) = view (some p))
    (r : Roster) (mother father child x : PersonId) :
    view ((r.addChild mother father child).get? x) = view (r.get? x) := by
  have hparent : ∀ p, view (some (withChild child p)) = view (some p) :=
    fun p => hview p (p.children ++ [child]) p.parents
  have hchild : ∀ p, view (some (withParents mother father p)) = view (some p) :=
    fun p => hview p p.children (some (mother, father))
  rw [addChild_eq]
  have hmother := update_frame view hparent r mother x
  have hfather := update_frame view hparent (r.update mother (withChild child)) father x
  exact (update_frame view hchild _ child x).trans (hfather.trans hmother)

/-- The roster with a newborn of two parents. -/
def bear (r : Roster) (a : Arrival) (mother father : PersonId) : Roster :=
  (r.spawn a).2.addChild mother father r.nextId

theorem becomes_withChild (child : PersonId) (p : Person) : p.Becomes (withChild child p) :=
  ⟨rfl, rfl, rfl, rfl, rfl, rfl, fun _ h => h⟩

theorem becomes_withParents (mother father : PersonId) (p : Person) :
    p.Becomes (withParents mother father p) := ⟨rfl, rfl, rfl, rfl, rfl, rfl, fun _ h => h⟩

theorem Continues.addChild (r : Roster) (mother father child : PersonId) :
    r.Continues (r.addChild mother father child) := by
  rw [addChild_eq]
  have hmother := update (becomes_withChild child) r mother
  have hfather := update (becomes_withChild child) (r.update mother (withChild child)) father
  exact (hmother.trans hfather).trans (update (becomes_withParents mother father) _ child)

theorem Continues.bear (r : Roster) (a : Arrival) (mother father : PersonId) :
    r.Continues (r.bear a mother father) :=
  (Continues.spawn r a).trans (.addChild ..)

theorem Numbered.addChild (h : r.Numbered) (mother father child : PersonId) :
    (r.addChild mother father child).Numbered := by
  rw [addChild_eq]
  have hmother := h.update (fun p => (becomes_withChild child p).id) mother
  have hfather := hmother.update (fun p => (becomes_withChild child p).id) father
  exact hfather.update (fun p => (becomes_withParents mother father p).id) child

theorem size_bear (r : Roster) (a : Arrival) (mother father : PersonId) :
    (r.bear a mother father).size = r.size + 1 := by
  unfold bear
  rw [addChild_eq, size_update, size_update, size_update, size_spawn]

section Bear

variable {a : Arrival} {mother father : PersonId} {m f : Person}

/-- As long as ids are left, a birth changes the newborn and the parents only. -/
theorem get?_bear (hsize : r.size < 2 ^ 32) (hm : r.get? mother = some m)
    (hf : r.get? father = some f) (hne : mother ≠ father) (x : PersonId) :
    (r.bear a mother father).get? x =
      if x = r.nextId then
        some (withParents mother father (a.person r.nextId))
      else if x = mother ∨ x = father then (r.get? x).map (withChild r.nextId)
      else r.get? x := by
  have hfresh := get?_nextId hsize
  have hmother : mother ≠ r.nextId := by
    rintro rfl
    rw [hfresh] at hm
    cases hm
  have hfather : father ≠ r.nextId := by
    rintro rfl
    rw [hfresh] at hf
    cases hf
  unfold bear
  rw [addChild_eq]
  simp only [get?_update, get?_spawn hsize]
  by_cases hchild : x = r.nextId
  · have hxm : x ≠ mother := fun h => hmother (h.symm.trans hchild)
    have hxf : x ≠ father := fun h => hfather (h.symm.trans hchild)
    rw [if_pos hchild, if_pos hchild, if_neg hxf, if_neg hxm, if_pos hchild]
    rfl
  · rw [if_neg hchild, if_neg hchild, if_neg hchild]
    by_cases hxm : x = mother
    · have hxf : x ≠ father := fun h => hne (hxm.symm.trans h)
      rw [if_neg hxf, if_pos hxm, if_pos (.inl hxm)]
    · by_cases hxf : x = father
      · rw [if_pos hxf, if_neg hxm, if_pos (.inr hxf)]
      · rw [if_neg hxf, if_neg hxm, if_neg (fun h => h.elim hxm hxf)]

/-- A birth adds the newborn at the end of the children of both parents. -/
theorem childrenOf_bear (hsize : r.size < 2 ^ 32) (hm : r.get? mother = some m)
    (hf : r.get? father = some f) (hne : mother ≠ father) (x : PersonId) :
    (r.bear a mother father).childrenOf x =
      if x = mother ∨ x = father then r.childrenOf x ++ [r.nextId] else r.childrenOf x := by
  have hfresh := get?_nextId hsize
  unfold childrenOf
  rw [get?_bear hsize hm hf hne]
  by_cases hchild : x = r.nextId
  · have hold : r.get? x = none := by
      rw [hchild]
      exact hfresh
    have hparent : ¬ (x = mother ∨ x = father) := by
      rintro (rfl | rfl)
      · rw [hold] at hm
        cases hm
      · rw [hold] at hf
        cases hf
    rw [if_pos hchild, if_neg hparent, hold]
    rfl
  · rw [if_neg hchild]
    split
    case isTrue hparent =>
      rcases hparent with rfl | rfl
      · rw [hm]
        rfl
      · rw [hf]
        rfl
    case isFalse => rfl

/-- A birth gives parents to the newborn only. -/
theorem parentsOf_bear (hsize : r.size < 2 ^ 32) (hm : r.get? mother = some m)
    (hf : r.get? father = some f) (hne : mother ≠ father) (x : PersonId) :
    (r.bear a mother father).parentsOf x =
      if x = r.nextId then some (mother, father) else r.parentsOf x := by
  unfold parentsOf
  rw [get?_bear hsize hm hf hne]
  split
  · rfl
  · split
    · cases r.get? x <;> rfl
    · rfl

theorem partnersOf_bear (r : Roster) (a : Arrival) (mother father x : PersonId) :
    (r.bear a mother father).partnersOf x = r.partnersOf x := by
  have hlinked := addChild_frame (fun o => (o.map Person.partners).getD []) (fun _ _ _ => rfl)
    (r.spawn a).2 mother father r.nextId x
  exact hlinked.trans ((SameLinks.spawn r a).partners x)

end Bear

end Roster

end Annals
