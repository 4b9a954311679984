import Annals.Proofs.Family.Turn
/-!
# The years in a roster

A roster has the years in which persons were born and died. Family life writes down no year but the
one it is in: newborns are born in it and the dead die in it. Whoever comes from outside brings a
year of birth.

* `Roster.years`: the years of birth and of death in a roster.
* `Roster.forall_years_update`, `forall_years_spawn`: what holds of the years in a roster holds
  after a change that writes down no others.
* `House.Turned.forall_years`, `House.forall_years_passYear`: a turn and a year of a dynasty.
-/

namespace Annals

/-- The years in which a person was born and died. -/
def Person.years (p : Person) : List Year := p.birthYear :: p.deathYear.toList

namespace Roster

/-- The years in which persons were born and died. -/
def years (r : Roster) : List Year := r.toList.flatMap Person.years

variable {P : Year → Prop} {r : Roster}

theorem forall_years_iff : (∀ y ∈ r.years, P y) ↔ ∀ p ∈ r.toList, ∀ y ∈ p.years, P y :=
  List.forall_mem_flatMap

theorem mem_of_get? {id : PersonId} {p : Person} (h : r.get? id = some p) : p ∈ r.toList :=
  Array.mem_toList_iff.2 (Array.mem_of_getElem? h)

/-! ## Changes -/

theorem forall_years_update {f : Person → Person}
    (hf : ∀ p : Person, (∀ y ∈ p.years, P y) → ∀ y ∈ (f p).years, P y)
    (h : ∀ y ∈ r.years, P y) (id : PersonId) : ∀ y ∈ (r.update id f).years, P y := by
  rw [forall_years_iff] at h ⊢
  intro p hp
  obtain ⟨i, hi⟩ := Array.mem_iff_getElem?.1 (Array.mem_toList_iff.1 hp)
  change (r.persons.modify _ f)[i]? = some p at hi
  rw [Array.getElem?_modify] at hi
  split at hi
  · obtain ⟨q, hq, rfl⟩ := Option.map_eq_some_iff.1 hi
    exact hf q (h q (Array.mem_toList_iff.2 (Array.mem_of_getElem? hq)))
  · exact h p (Array.mem_toList_iff.2 (Array.mem_of_getElem? hi))

/-- An arrival brings a year of birth. -/
theorem years_spawn (r : Roster) (a : Arrival) :
    (r.spawn a).2.years = r.years ++ [a.birthYear] := by
  unfold years toList spawn
  rw [Array.toList_push, List.flatMap_append]
  rfl

theorem forall_years_spawn (h : ∀ y ∈ r.years, P y) {a : Arrival} (ha : P a.birthYear) :
    ∀ y ∈ (r.spawn a).2.years, P y := by
  rw [years_spawn]
  exact List.forall_mem_append.2 ⟨h, List.forall_mem_singleton.2 ha⟩

theorem forall_years_marry (h : ∀ y ∈ r.years, P y) (a b : PersonId) :
    ∀ y ∈ (r.marry a b).years, P y := by
  have hpartner : ∀ (c : PersonId) (p : Person), (addPartner c p).years = p.years := by
    intro c p
    unfold addPartner
    split <;> rfl
  refine forall_years_update (fun p hp => ?_) (forall_years_update (fun p hp => ?_) h a) b
  · rw [hpartner]
    exact hp
  · rw [hpartner]
    exact hp

theorem forall_years_bear (h : ∀ y ∈ r.years, P y) {a : Arrival} (ha : P a.birthYear)
    (mother father : PersonId) : ∀ y ∈ (r.bear a mother father).years, P y := by
  have hborn := forall_years_spawn h ha
  have hmother := forall_years_update (f := withChild r.nextId) (fun _ hp => hp) hborn mother
  have hfather := forall_years_update (f := withChild r.nextId) (fun _ hp => hp) hmother father
  exact forall_years_update (f := withParents mother father) (fun _ hp => hp) hfather r.nextId

/-- A death is dated in its year; a year of death that is there already stays. -/
theorem forall_years_kill (h : ∀ y ∈ r.years, P y) (id : PersonId) {year : Year} (hyear : P year) :
    ∀ y ∈ (r.kill id year).years, P y := by
  refine forall_years_update (f := deceased year) (fun p hp => ?_) h id
  obtain ⟨hbirth, hdeath⟩ := List.forall_mem_cons.1 hp
  refine List.forall_mem_cons.2 ⟨hbirth, List.forall_mem_singleton.2 ?_⟩
  cases hdead : p.deathYear with
  | none => exact hyear
  | some year' =>
    refine hdeath year' ?_
    rw [hdead]
    exact List.mem_singleton_self _

end Roster

/-! ## A dynasty's year -/

namespace House

variable {σ : Type} [Dice σ] {P : Year → Prop} {s : FamilySettings} {year : Year}

/-- A turn writes down no year but its own. -/
theorem Turned.forall_years {id : PersonId} {h next : House σ} {events : List FamilyEvent}
    (hturned : Turned s year id h events next) (hyear : P year) (hr : ∀ y ∈ h.roster.years, P y) :
    ∀ y ∈ next.roster.years, P y := by
  cases hturned with
  | gone hdead => exact hr
  | @aged p loss _ _ _ hget halive hfared =>
    have haged : ∀ y ∈ (h.roster.weaken id loss).years, P y :=
      Roster.forall_years_update (f := Roster.weakened loss) (fun _ hp => hp) hr id
    have hburied := Roster.forall_years_kill haged id hyear
    cases hfared with
    | quiet dice => exact haged
    | died hother => exact hburied
    | @succeeded isKing heir kinship hmonarch hheir =>
      exact Roster.forall_years_update (f := Roster.withCrown) (fun _ hp => hp) hburied heir
    | ended isKing hmonarch hheir => exact hburied
    | married dice hgrown hsingle hpartner => exact Roster.forall_years_marry haged id _
    | bore drawn dice hfertile hfather arrival harrival =>
      -- The newborn is born in the year of the turn.
      have hborn : P arrival.birthYear := by
        rw [harrival]
        exact hyear
      exact Roster.forall_years_bear haged hborn id _

theorem forall_years_passMembers (hyear : P year) (ids : List PersonId) {h : House σ}
    (hr : ∀ y ∈ h.roster.years, P y) : ∀ y ∈ (h.passMembers s year ids).2.roster.years, P y := by
  induction ids generalizing h with
  | nil => exact hr
  | cons id rest ih => exact ih ((turned s year id h).forall_years hyear hr)

/-- A year of a dynasty writes down no other year. -/
theorem forall_years_passYear (hyear : P year) {h : House σ} (hr : ∀ y ∈ h.roster.years, P y) :
    ∀ y ∈ (h.passYear s year).2.roster.years, P y :=
  forall_years_passMembers hyear h.dynasty.family hr

end House

end Annals
