import Annals.Proofs.Family.Genealogy
import Annals.Proofs.Simulation.Sagas
/-!
# The genealogy of a simulation

As long as ids are left, the roster of a simulation is a genealogy: persons stand at their ids,
marriages follow one another, and links between parents and children are noted on both sides.

* `Simulation.genealogy_law`: every move of family life keeps the genealogy.
* `Simulation.genealogy_after`: what it says of partners, children and parents after any number of
  steps.
-/

namespace Annals.Simulation

variable {σ : Type} [Dice σ]

/-- As long as ids are left, every move of family life keeps the genealogy. -/
theorem genealogy_law : FamilyLaw σ fun _ r _ => r.size ≤ 2 ^ 32 → r.Genealogy where
  start := fun _ => Roster.genealogy_empty
  found := by
    intro ds r name king queen hking hqueen hP hsize
    have hbefore := hP (Nat.le_trans (Roster.Continues.withCouple r king queen).size_le hsize)
    exact hbefore.withCouple hking hqueen hsize
  expire := fun hP => hP
  arrive := by
    intro ds r m a years hP hsize
    exact (hP (Nat.le_trans (Roster.Continues.spawn r a).size_le hsize)).spawn a
  turn := by
    intro before behind s year id h h' events hturned hmember hP hsize
    exact (hP (Nat.le_trans hturned.continues.size_le hsize)).turned hturned hsize

/-- After any number of steps that leave the ids unique, every person stands at the id; partnership
is mutual and of opposite genders, nobody is listed twice, and of the partners only the last one can
live; children and parents list each other, a child once; a mother is female, a father male, both
have smaller ids than the child, and nobody descends from himself. -/
theorem genealogy_after (c : Config) (catalog : Catalog) (dice : σ) (n : Nat)
    (hids : ((ofConfig c catalog dice).after n).roster.size ≤ 2 ^ 32) :
    let r := ((ofConfig c catalog dice).after n).roster
    (∀ (i : Nat) (p : Person), r.persons[i]? = some p → p.id.index.toNat = i) ∧
    (∀ a b, b ∈ r.partnersOf a → a ∈ r.partnersOf b ∧ a ≠ b ∧
      ∃ g, r.genderOf a = some g ∧ r.genderOf b = some g.opposite) ∧
    (∀ a, (r.partnersOf a).Nodup) ∧
    (∀ a, ∀ b ∈ (r.partnersOf a).dropLast, r.isAlive b = false) ∧
    (∀ a, ∀ b ∈ r.partnersOf a, ∀ c ∈ r.partnersOf a,
      r.isAlive b = true → r.isAlive c = true → b = c) ∧
    (∀ p c, c ∈ r.childrenOf p ↔
      ∃ mother father, r.parentsOf c = some (mother, father) ∧ (p = mother ∨ p = father)) ∧
    (∀ p, (r.childrenOf p).Nodup) ∧
    (∀ c mother father, r.parentsOf c = some (mother, father) →
      r.genderOf mother = some .female ∧ r.genderOf father = some .male ∧
      mother.index.toNat < c.index.toNat ∧ father.index.toNat < c.index.toNat) ∧
    (∀ a, ¬ Relation.TransGen (fun c p => c ∈ r.childrenOf p) a a) := by
  intro r
  have h : r.Genealogy := genealogy_law.after c catalog dice n hids
  refine ⟨?_, ?_, h.once, ?_, ?_, ?_, h.bornOnce, ?_, ?_⟩
  · intro i p hp
    have hi : i < r.size := (Array.getElem?_eq_some_iff.1 hp).1
    rw [h.numbered i p hp]
    exact UInt32.toNat_ofNat_of_lt' (Nat.lt_of_lt_of_le hi hids)
  · intro a b hb
    exact ⟨h.symmetric hb, h.ne_of_mem hb, h.opposite hb⟩
  · intro a b hb
    exact h.widowed hb
  · intro a b hb c hc hbalive hcalive
    exact h.eq_of_isAlive hb hc hbalive hcalive
  · intro p c
    exact h.mirrored
  · intro c mother father hc
    exact ⟨(h.wedded hc).1, h.father_male hc, h.older hc⟩
  · intro a hcycle
    exact Nat.lt_irrefl _ (h.descent_lt hcycle)

/-- After three years the founding couple has a child. -/
theorem genealogy_after_birth :
    let r := ((ofConfig {} .empty Rules.still).after 3).roster
    r.size ≤ 2 ^ 32 ∧ r.parentsOf ⟨3⟩ = some (⟨1⟩, ⟨0⟩) ∧ ⟨3⟩ ∈ r.childrenOf ⟨0⟩ ∧
      r.genderOf ⟨1⟩ = some .female ∧ r.genderOf ⟨0⟩ = some .male ∧
      ¬ Relation.TransGen (fun c p => c ∈ r.childrenOf p) ⟨3⟩ ⟨3⟩ := by
  intro r
  have hids : r.size ≤ 2 ^ 32 := by decide +kernel
  have hborn : r.parentsOf ⟨3⟩ = some (⟨1⟩, ⟨0⟩) := by decide +kernel
  obtain ⟨-, -, -, -, -, hmirrored, -, hparents, hacyclic⟩ :=
    genealogy_after {} .empty Rules.still 3 hids
  obtain ⟨hfemale, hmale, -, -⟩ := hparents _ _ _ hborn
  exact ⟨hids, hborn, (hmirrored _ _).2 ⟨_, _, hborn, .inr rfl⟩, hfemale, hmale, hacyclic _⟩

end Annals.Simulation
