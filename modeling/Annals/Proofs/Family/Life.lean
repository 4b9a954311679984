import Annals.Proofs.Family.Kin
/-!
# Life in a roster

Persons lose health, die, and become monarchs. None of this changes who is related to whom.

* `Roster.weaken`, `Roster.crown`: a loss of health, a new monarch.
* `Continues`, `Numbered` and `SameLinks` for these and for deaths.
* `Roster.isAlive_kill`, `Roster.isAlive_spawn_iff`, and that nothing else touches life.
* `Roster.livingPartner?_mem`, `Roster.widowed_of_livingPartner?`: the partner who is alive.
-/

namespace Annals

namespace Roster

/-! ## Health, the crown and death -/

/-- A person after a loss of health. -/
def weakened (loss : Int32) (p : Person) : Person := { p with health := p.health - loss }

/-- A person who has been monarch. -/
def withCrown (p : Person) : Person := { p with wasMonarch := true }

/-- A person who has died, at the latest in a year. -/
def deceased (year : Year) (p : Person) : Person :=
  { p with deathYear := some (p.deathYear.getD year) }

/-- The roster after a loss of health. -/
def weaken (r : Roster) (id : PersonId) (loss : Int32) : Roster := r.update id (weakened loss)

/-- The roster after someone has become monarch. -/
def crown (r : Roster) (id : PersonId) : Roster := r.update id withCrown

@[simp] theorem size_crown (r : Roster) (id : PersonId) : (r.crown id).size = r.size :=
  size_update ..

@[simp] theorem size_marry (r : Roster) (a b : PersonId) : (r.marry a b).size = r.size := by
  unfold marry
  rw [size_update, size_update]

theorem becomes_weakened (loss : Int32) (p : Person) : p.Becomes (weakened loss p) :=
  ⟨rfl, rfl, rfl, rfl, rfl, rfl, fun _ h => h⟩

theorem becomes_withCrown (p : Person) : p.Becomes (withCrown p) :=
  ⟨rfl, rfl, rfl, rfl, rfl, rfl, fun _ h => h⟩

theorem becomes_deceased (year : Year) (p : Person) : p.Becomes (deceased year p) := by
  refine ⟨rfl, rfl, rfl, rfl, rfl, rfl, fun y hdeath => ?_⟩
  show some (p.deathYear.getD year) = some y
  rw [hdeath]
  rfl

theorem Continues.weaken (r : Roster) (id : PersonId) (loss : Int32) :
    r.Continues (r.weaken id loss) := update (becomes_weakened loss) r id

theorem Continues.crown (r : Roster) (id : PersonId) : r.Continues (r.crown id) :=
  update becomes_withCrown r id

theorem Continues.kill (r : Roster) (id : PersonId) (year : Year) :
    r.Continues (r.kill id year) := update (becomes_deceased year) r id

theorem Numbered.weaken {r : Roster} (h : r.Numbered) (id : PersonId) (loss : Int32) :
    (r.weaken id loss).Numbered := h.update (fun p => (becomes_weakened loss p).id) id

theorem Numbered.crown {r : Roster} (h : r.Numbered) (id : PersonId) : (r.crown id).Numbered :=
  h.update (fun p => (becomes_withCrown p).id) id

theorem Numbered.kill {r : Roster} (h : r.Numbered) (id : PersonId) (year : Year) :
    (r.kill id year).Numbered := h.update (fun p => (becomes_deceased year p).id) id

theorem SameLinks.weaken (r : Roster) (id : PersonId) (loss : Int32) :
    r.SameLinks (r.weaken id loss) :=
  update (f := weakened loss) ⟨fun _ => rfl, fun _ => rfl, fun _ => rfl⟩ r id

theorem SameLinks.crown (r : Roster) (id : PersonId) : r.SameLinks (r.crown id) :=
  update (f := withCrown) ⟨fun _ => rfl, fun _ => rfl, fun _ => rfl⟩ r id

theorem SameLinks.kill (r : Roster) (id : PersonId) (year : Year) :
    r.SameLinks (r.kill id year) :=
  update (f := deceased year) ⟨fun _ => rfl, fun _ => rfl, fun _ => rfl⟩ r id

/-! ## The living -/

theorem isAlive_weaken (r : Roster) (id : PersonId) (loss : Int32) (x : PersonId) :
    (r.weaken id loss).isAlive x = r.isAlive x :=
  update_frame (f := weakened loss) (fun o => o.any Person.isAlive) (fun _ => rfl) r id x

theorem isAlive_crown (r : Roster) (id x : PersonId) : (r.crown id).isAlive x = r.isAlive x :=
  update_frame (f := withCrown) (fun o => o.any Person.isAlive) (fun _ => rfl) r id x

theorem isAlive_marry (r : Roster) (a b x : PersonId) :
    (r.marry a b).isAlive x = r.isAlive x :=
  marry_frame (fun o => o.any Person.isAlive) (fun _ _ => rfl) r a b x

theorem isAlive_addChild (r : Roster) (mother father child x : PersonId) :
    (r.addChild mother father child).isAlive x = r.isAlive x :=
  addChild_frame (fun o => o.any Person.isAlive) (fun _ _ _ => rfl) r mother father child x

/-- A death takes one of the living. -/
theorem isAlive_kill (r : Roster) (id : PersonId) (year : Year) (x : PersonId) :
    (r.kill id year).isAlive x = true ↔ x ≠ id ∧ r.isAlive x = true := by
  unfold isAlive kill
  rw [get?_update]
  split
  case isTrue heq =>
    refine ⟨fun h => ?_, fun h => absurd heq h.1⟩
    cases hx : r.get? x with
    | none =>
      rw [hx] at h
      cases h
    | some p =>
      rw [hx] at h
      cases h
  case isFalse hne => exact ⟨fun h => ⟨hne, h⟩, fun h => h.2⟩

/-- Who lives after an arrival has lived before or has the next id. -/
theorem isAlive_spawn {r : Roster} {a : Arrival} {x : PersonId}
    (h : (r.spawn a).2.isAlive x = true) : r.isAlive x = true ∨ x = r.nextId := by
  rcases get?_spawn_cases r a x with hsame | ⟨hnext, -, -⟩
  · left
    unfold isAlive at h ⊢
    rw [← hsame]
    exact h
  · exact .inr hnext

/-- As long as ids are left, an arrival lives. -/
theorem isAlive_spawn_iff {r : Roster} (hsize : r.size < 2 ^ 32) {a : Arrival} {x : PersonId} :
    (r.spawn a).2.isAlive x = true ↔ r.isAlive x = true ∨ x = r.nextId := by
  refine ⟨isAlive_spawn, ?_⟩
  rintro (hbefore | rfl)
  · obtain ⟨p, hp, halive⟩ := exists_of_isAlive hbefore
    exact (isAlive_of_get? (get?_spawn_of_some hp a)).trans halive
  · exact isAlive_of_get? (get?_spawn_nextId hsize a)

/-! ## Living partners -/

theorem livingPartner?_mem {r : Roster} {a b : PersonId} (h : r.livingPartner? a = some b) :
    b ∈ r.partnersOf a ∧ r.isAlive b = true := by
  obtain ⟨p, hp, hfind⟩ := Option.bind_eq_some_iff.1 h
  rw [partnersOf_of_get? hp]
  exact ⟨List.mem_reverse.1 (List.mem_of_find?_eq_some hfind), List.find?_some hfind⟩

/-- Whoever has no living partner has outlived all of them. -/
theorem widowed_of_livingPartner? {r : Roster} {a c : PersonId} (h : r.livingPartner? a = none)
    (hc : c ∈ r.partnersOf a) : r.isAlive c = false := by
  cases hp : r.get? a with
  | none =>
    unfold partnersOf at hc
    rw [hp] at hc
    exact absurd hc List.not_mem_nil
  | some p =>
    rw [partnersOf_of_get? hp] at hc
    unfold livingPartner? at h
    rw [hp] at h
    have hdead := List.find?_eq_none.1 h c (List.mem_reverse.2 hc)
    simpa using hdead

end Roster

end Annals
