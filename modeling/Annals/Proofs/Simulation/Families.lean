import Annals.Proofs.Family.Crowds
import Annals.Proofs.Simulation.Steps
/-!
# Families over the years

The dynasties, the roster and the market of a simulation change by the moves of family life only.

* `FamilyLaw`: a property that holds without dynasties and is kept by every move.
* `Simulation.ofConfig_induction`: what every founding keeps holds at the beginning.
* `Simulation.couples_ofConfig`, `Simulation.founders_ofConfig`: the founders at the beginning.
* `Simulation.families_step`: a step changes the families on the market and in the houses.
* `Simulation.families_meet`: dynasties beyond the ids for founders share their families.
-/

namespace Annals

/-- A property of dynasties, their roster and their market that every move of family life keeps. -/
structure FamilyLaw (σ : Type) [Dice σ] (P : List Dynasty → Roster → Market → Prop) : Prop where
  start : P [] .empty .empty
  found : ∀ {ds r} (name : String) {king queen : Roster.Arrival}, king.gender = .male →
    queen.gender = .female → P ds r .empty →
    P (ds ++ [.ofCouple name r.nextId (r.spawn king).2.nextId]) (r.withCouple king queen) .empty
  expire : ∀ {ds r m}, P ds r m → P ds r (m.expire r)
  arrive : ∀ {ds r m} (a : Roster.Arrival) (years : UInt32), P ds r m →
    P ds (r.spawn a).2 (m.add r.nextId years)
  turn : ∀ {before behind : List Dynasty} {s : FamilySettings} {year : Year} {id : PersonId}
    {h h' : House σ} {events : List FamilyEvent}, House.Turned s year id h events h' →
    (h.roster.isAlive id = true → id ∈ h.dynasty.family) →
    P (before ++ h.dynasty :: behind) h.roster h.market →
    P (before ++ h'.dynasty :: behind) h'.roster h'.market

/-! ## Simulations -/

namespace Simulation

variable {σ : Type} [Dice σ]

/-- A property of dynasties, roster and market, of the state of a simulation. -/
def Families (P : List Dynasty → Roster → Market → Prop) (s : Simulation σ) : Prop :=
  P s.dynasties s.roster s.market

/-- What every founding keeps holds at the beginning. -/
theorem ofConfig_induction {P : List Dynasty → Roster → Prop}
    (hfound : ∀ {ds r} (name : String) {king queen : Roster.Arrival}, king.gender = .male →
      queen.gender = .female → P ds r →
      P (ds ++ [.ofCouple name r.nextId (r.spawn king).2.nextId]) (r.withCouple king queen))
    (hnone : P [] .empty) (c : Config) (catalog : Catalog) (dice : σ) :
    P (ofConfig c catalog dice).dynasties (ofConfig c catalog dice).roster :=
  Dynasty.foundAll_induction hfound c.run.startYear c.family.ageing.initialHealth c.run.dynasties
    dice hnone

/-- At the beginning there are the founders, a couple for each dynasty. -/
theorem couples_ofConfig (c : Config) (catalog : Catalog) (dice : σ) :
    Dynasty.Couples (ofConfig c catalog dice).dynasties (ofConfig c catalog dice).roster :=
  Dynasty.couples_foundAll ..

theorem length_dynasties_ofConfig (c : Config) (catalog : Catalog) (dice : σ) :
    (ofConfig c catalog dice).dynasties.length = c.run.dynasties.length := by
  rw [← List.length_map, ← Dynasty.map_name_foundAll c.run.startYear
    c.family.ageing.initialHealth c.run.dynasties .empty dice]
  rfl

/-- At the beginning everyone has the age and the health of a founder. -/
theorem founders_ofConfig {c : Config} (hstart : -2 ^ 31 + 40 ≤ c.run.startYear.toInt)
    (hhealth : c.family.ageing.initialHealth = 100) (catalog : Catalog) (dice : σ) :
    (ofConfig c catalog dice).roster.Founded (ofConfig c catalog dice).clock.year := by
  have hfounded :=
    (Dynasty.foundAll_inRange hstart c.run.dynasties dice (.empty c.run.startYear)).2
  rw [← hhealth] at hfounded
  exact hfounded

/-- A configuration with a number of dynasties. -/
def crowded (family : FamilySettings) (couples : Nat) : Config :=
  { run := { dynasties := List.replicate couples "House Nerdival" }, family }

@[simp] theorem length_crowded (family : FamilySettings) (couples : Nat) :
    (crowded family couples).run.dynasties.length = couples := List.length_replicate

/-- Where there are more dynasties than ids for founders, two of them begin with the same family. -/
theorem families_meet {c : Config} (hc : 2 ^ 31 < c.run.dynasties.length) (catalog : Catalog)
    (dice : σ) :
    ¬ (ofConfig c catalog dice).dynasties.Pairwise fun d e => d.family.Disjoint e.family := by
  have hcouples := couples_ofConfig c catalog dice
  have hlength := length_dynasties_ofConfig c catalog dice
  generalize (ofConfig c catalog dice).dynasties = ds at hcouples hlength
  intro hapart
  have hfirst : 0 < ds.length := by omega
  have hlater : 0 + 2 ^ 31 < ds.length := by omega
  have hmeet := List.pairwise_iff_getElem.1 hapart 0 (0 + 2 ^ 31) hfirst hlater (by decide)
  rw [Dynasty.founders_repeat hcouples (List.getElem?_eq_getElem hfirst)
    (List.getElem?_eq_getElem hlater)] at hmeet
  -- The first king is in both.
  have hking : (⟨0⟩ : PersonId) ∈ ds[0].family := by
    rw [hcouples.place (List.getElem?_eq_getElem hfirst)]
    exact List.mem_cons_self
  exact hmeet hking hking

/-- The world leaves the families alone. -/
theorem families_step (s : Simulation σ) :
    s.step.2.dynasties = s.passMarket.passDynasties.dynasties ∧
    s.step.2.roster = s.passMarket.passDynasties.roster ∧
    s.step.2.market = s.passMarket.passDynasties.market ∧ s.step.2.settings = s.settings := by
  have hworld : ∀ m : Simulation σ, m.passWorld.dynasties = m.dynasties ∧
      m.passWorld.roster = m.roster ∧ m.passWorld.market = m.market ∧
      m.passWorld.settings = m.settings := by
    intro m
    unfold passWorld
    split <;> exact ⟨rfl, rfl, rfl, rfl⟩
  have hpassed := hworld s.passMarket.passDynasties
  unfold step
  dsimp only
  split <;> exact hpassed

end Simulation

/-- A year on the market keeps the law. -/
theorem FamilyLaw.passMarket {σ : Type} [Dice σ] {P : List Dynasty → Roster → Market → Prop}
    (law : FamilyLaw σ P) {s : Simulation σ} {ds : List Dynasty} (hP : P ds s.roster s.market) :
    P ds s.passMarket.roster s.passMarket.market := by
  have hstale := law.expire hP
  unfold Simulation.passMarket
  rcases s.market.update_cases s.settings s.clock.year s.roster s.dice with
    ⟨dice', heq⟩ | ⟨arrival, dice', heq⟩
  · rw [heq]
    exact hstale
  · rw [heq]
    exact law.arrive arrival s.settings.marriage.candidateYears hstale

end Annals
