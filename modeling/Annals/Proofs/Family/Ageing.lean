import Annals.Proofs.Family.Census
import Annals.Proofs.Family.Operations
/-!
# Ageing in the year of a house

In the turns of a list of persons each of them who lives ages once, whatever else happens in the
turns of the others. Nobody outside the list ages, and members who survive stay in the family.

* `House.exists_passMembers_of_not_mem`: whoever is not in the list does not age.
* `House.healthOf_passMembers_of_mem`: whoever is ages once.
* `House.stays_passMembers`: the living stay in the family.
-/

namespace Annals.House

variable {σ : Type} [Dice σ] {h : House σ} {x : PersonId} {q : Person}

/-- A person after the turn of somebody else: still there, with the same health, and alive if alive
before. -/
theorem exists_passMember_of_ne (s : FamilySettings) (year : Year) {id : PersonId}
    (hq : h.roster.get? x = some q) (hne : x ≠ id) :
    ∃ q', (passMember s year id h).2.roster.get? x = some q' ∧ q'.health = q.health ∧
      (q.isAlive = true → q'.isAlive = true) := by
  have hturned := turned s year id h
  obtain ⟨q', hq', -⟩ := hturned.continues.stays hq
  refine ⟨q', hq', ?_, fun halive => ?_⟩
  · have hhealth := hturned.healthOf hq fun _ => hne
    rw [Roster.healthOf_of_get? hq'] at hhealth
    exact Option.some.inj hhealth
  · rw [← Roster.isAlive_of_get? hq']
    exact hturned.isAlive_of_ne hne ((Roster.isAlive_of_get? hq).trans halive)

/-- The turns of others leave a person there, with the same health, and alive if alive before. -/
theorem exists_passMembers_of_not_mem (s : FamilySettings) (year : Year) {ids : List PersonId}
    (hq : h.roster.get? x = some q) (hx : x ∉ ids) :
    ∃ q', (passMembers s year ids h).2.roster.get? x = some q' ∧ q'.health = q.health ∧
      (q.isAlive = true → q'.isAlive = true) := by
  induction ids generalizing h q with
  | nil => exact ⟨q, hq, rfl, fun halive => halive⟩
  | cons id rest ih =>
    obtain ⟨q', hq', hhealth, hlife⟩ := exists_passMember_of_ne s year hq
      (List.ne_of_not_mem_cons hx)
    obtain ⟨q'', hq'', hhealth', hlife'⟩ := ih hq' (List.not_mem_of_not_mem_cons hx)
    exact ⟨q'', hq'', hhealth'.trans hhealth, fun halive => hlife' (hlife halive)⟩

/-- In turns of different persons a living one of them loses health once. -/
theorem healthOf_passMembers_of_mem (s : FamilySettings) (year : Year) {ids : List PersonId}
    (honce : ids.Nodup) (hx : x ∈ ids) (hq : h.roster.get? x = some q)
    (halive : q.isAlive = true) :
    ∃ loss : σ, (passMembers s year ids h).2.roster.healthOf x =
      some (q.health - drawnLoss s.ageing loss) := by
  induction ids generalizing h q with
  | nil => cases hx
  | cons id rest ih =>
    obtain ⟨hnew, hrest⟩ := List.nodup_cons.1 honce
    by_cases hne : x = id
    · -- The own turn; the turns behind it are those of others.
      subst hne
      obtain ⟨loss, -, hhealth, -⟩ := healthOf_passMember s year hq halive
      obtain ⟨q', hq', hturn⟩ := Option.map_eq_some_iff.1 hhealth
      obtain ⟨q'', hq'', hhealth', -⟩ := exists_passMembers_of_not_mem s year
        hq' hnew
      exact ⟨loss, (Roster.healthOf_of_get? hq'').trans (congrArg some (hhealth'.trans hturn))⟩
    · have hlater : x ∈ rest := (List.mem_cons.1 hx).resolve_left hne
      obtain ⟨q', hq', hhealth, hlife⟩ := exists_passMember_of_ne s year hq hne
      rw [← hhealth]
      exact ih hrest hlater hq' (hlife halive)

/-- Whoever is a member when alive is one after any turns. -/
theorem stays_passMembers (s : FamilySettings) (year : Year) (ids : List PersonId)
    (hmember : h.roster.isAlive x = true → x ∈ h.dynasty.family)
    (halive : (passMembers s year ids h).2.roster.isAlive x = true) :
    x ∈ (passMembers s year ids h).2.dynasty.family := by
  induction ids generalizing h with
  | nil => exact hmember halive
  | cons id rest ih => exact ih (fun hnext => (turned s year id h).stays hmember hnext) halive

end Annals.House
