import Annals.Proofs.Course.Operations
import Annals.Proofs.Family.Operations
import Annals.Proofs.Simulation.Runs
import Annals.Proofs.Simulation.Families
/-!
# The operations of a run

A simulation performs operations on words at its founding and in each of its steps: on the market,
in the houses, in the chains of the world, and when the clock moves on.

* `Simulation.foundingOperations`, `Simulation.operations`: those of the founding and of a step.
* `Simulation.runOperations`: those of a run.
* `TurnLaw.step`: what the turns of a year keep and grant, for a whole step.
* `Simulation.Sound.mem_runForOperations`: an operation of a run belongs to one of its years.
-/

namespace Annals

namespace Simulation

variable {σ : Type} [Dice σ]

/-- The operations of the founding. -/
def foundingOperations (c : Config) (dice : σ) : List Operation :=
  Dynasty.foundAllOperations c.run.startYear c.family.ageing.initialHealth c.run.dynasties .empty
    dice

/-- The operations of the year of dynasties, one after the other. -/
def housesOperations (settings : FamilySettings) (year : Year) :
    List Dynasty → Roster → Market → σ → List Operation
  | [], _, _, _ => []
  | dynasty :: rest, roster, market, dice =>
    let h : House σ := { dynasty, roster, market, dice }
    let next := (h.passYear settings year).2
    h.yearOperations settings year ++
      housesOperations settings year rest next.roster next.market next.dice

/-- The operations of a step. The clock moves on only when the year is finished. -/
def operations (s : Simulation σ) : List Operation :=
  let m := s.passMarket
  let d := m.passDynasties
  s.market.updateOperations s.settings s.clock.year s.roster s.dice ++
    housesOperations m.settings m.clock.year m.dynasties m.roster m.market m.dice ++
    (if d.book.fault.isSome then [] else d.rules.passYearOperations d.clock.year d.world d.dice) ++
    (if s.step.1.isOk then [.add s.clock.year 1] else [])

/-- The operations of at most `n` years, as long as the clock is not finished. -/
def runForOperations : Nat → Simulation σ → List Operation
  | 0, _ => []
  | n + 1, s =>
    if s.clock.isFinished then []
    else
      s.operations ++
        match s.step with
        | (.error _, _) => []
        | (.ok _, next) => runForOperations n next

/-- The operations of the years that are left. -/
def runOperations (s : Simulation σ) : List Operation := runForOperations s.clock.remaining s

/-! ## What steps keep -/

theorem continues_passMarket (s : Simulation σ) : s.roster.Continues s.passMarket.roster := by
  unfold passMarket
  rcases s.market.update_cases s.settings s.clock.year s.roster s.dice with
    ⟨dice', heq⟩ | ⟨arrival, dice', heq⟩
  · rw [heq]
    exact .refl _
  · rw [heq]
    exact .spawn ..

theorem continues_passHouses (settings : FamilySettings) (year : Year) (ds : List Dynasty)
    (r : Roster) (m : Market) (dice : σ) :
    r.Continues (passHouses settings year ds r m dice).2.2.1 := by
  induction ds generalizing r m dice with
  | nil => exact .refl r
  | cons d rest ih =>
    exact (House.continues_passMembers settings year d.family ⟨d, r, m, dice⟩).trans (ih ..)

theorem continues_passDynasties (s : Simulation σ) :
    s.passMarket.roster.Continues s.step.2.roster := by
  rw [s.families_step.2.1]
  exact continues_passHouses ..

/-- Nobody is forgotten in a step. -/
theorem continues_step (s : Simulation σ) : s.roster.Continues s.step.2.roster :=
  s.continues_passMarket.trans s.continues_passDynasties

/-- Nobody is forgotten in a run. -/
theorem continues_runFor (n : Nat) (s : Simulation σ) :
    s.roster.Continues (runFor n s).last.roster := by
  induction n generalizing s with
  | zero => exact .refl _
  | succ n ih =>
    have hnext := s.continues_step
    unfold runFor
    split
    case isTrue => exact .refl _
    case isFalse =>
      rcases hstep : s.step with ⟨result, next⟩
      rw [hstep] at hnext
      cases result with
      | error fault => exact hnext
      | ok report => exact hnext.trans (ih next)

theorem settings_after (s : Simulation σ) (n : Nat) : (s.after n).settings = s.settings := by
  induction n with
  | zero => rfl
  | succ n ih => exact (families_step _).2.2.2.trans ih

variable {s : Simulation σ}

/-- A step that is finished moves the clock on. -/
theorem clock_step (hblank : s.book = .blank) (hok : s.step.1.isOk = true) :
    s.step.2.clock = s.clock.tick := by
  have hview := stepped hblank
  generalize s.step.1 = result, s.step.2 = next at hview hok ⊢
  cases hview with
  | told families dice hfault hworld hrules hclock hbook => exact hclock
  | broken fault dice hfault hworld hrules hclock hbook => cases hok

/-! ## Years of a run -/

/-- An operation of a run belongs to a step before the end of the clock, and the run has everyone
who is there after that step. -/
theorem Sound.mem_runForOperations (h : s.Sound) (htime : s.OnTime) {n : Nat} {op : Operation}
    (hop : op ∈ s.runForOperations n) :
    ∃ k < s.clock.remaining, op ∈ (s.after k).operations ∧
      (s.after (k + 1)).roster.size ≤ (runFor n s).last.roster.size := by
  induction n generalizing s with
  | zero => exact absurd hop List.not_mem_nil
  | succ n ih =>
    unfold runForOperations at hop
    split at hop
    case isTrue => exact absurd hop List.not_mem_nil
    case isFalse hguard =>
      have hleft : s.clock.isFinished = false := Bool.eq_false_iff.2 hguard
      obtain ⟨⟨report, hreport⟩, -, hclock⟩ := h.step_ok htime
      have hrun : (runFor (n + 1) s).last = (runFor n s.step.2).last := by
        conv_lhs => unfold runFor
        rw [if_neg hguard]
        rcases hstep : s.step with ⟨result, next⟩
        rw [hstep] at hreport
        cases hreport
        rfl
      rw [hrun]
      rcases List.mem_append.1 hop with hop | hop
      · exact ⟨0, Clock.isFinished_eq_false_iff.1 hleft, hop, (continues_runFor n _).size_le⟩
      · have hrest : op ∈ s.step.2.runForOperations n := by
          rcases hstep : s.step with ⟨result, next⟩
          rw [hstep] at hreport hop
          cases hreport
          exact hop
        obtain ⟨k, hk, hop, hsize⟩ := ih h.step (h.onTime_step htime hleft) hrest
        rw [hclock, Clock.remaining_tick hleft] at hk
        rw [after_step] at hop hsize
        exact ⟨k + 1, by omega, hop, hsize⟩

end Simulation

/-! ## Laws of turns -/

namespace TurnLaw

variable {σ : Type} [Dice σ] {assumed granted : Operation → Prop}
  {P : List PersonId → List Dynasty → Roster → Market → Prop}

/-- What holds before the turns of a year holds after them and tells of all their operations. -/
theorem passHouses {settings : FamilySettings} {year : Year}
    (law : TurnLaw σ settings year assumed granted P) {before ds : List Dynasty} {r : Roster}
    {m : Market} (dice : σ)
    (hsize : (Simulation.passHouses settings year ds r m dice).2.2.1.size ≤ 2 ^ 32)
    (hassumed : ∀ op ∈ Simulation.housesOperations settings year ds r m dice, assumed op)
    (hP : P (ds.flatMap Dynasty.family) (before ++ ds) r m) :
    let passed := Simulation.passHouses settings year ds r m dice
    (∀ op ∈ Simulation.housesOperations settings year ds r m dice, granted op) ∧
      P [] (before ++ passed.2.1) passed.2.2.1 passed.2.2.2.1 := by
  induction ds generalizing before r m dice with
  | nil => exact ⟨List.forall_mem_nil _, hP⟩
  | cons d rest ih =>
    let h : House σ := ⟨d, r, m, dice⟩
    let next := (h.passYear settings year).2
    have hnext : next.roster.size ≤ 2 ^ 32 :=
      Nat.le_trans (Simulation.continues_passHouses ..).size_le hsize
    obtain ⟨hfirst, hlater⟩ := List.forall_mem_append.1 hassumed
    rw [List.flatMap_cons] at hP
    obtain ⟨hown, hyear⟩ :=
      law.passMembers d.family h (fun _ hid _ => hid) hnext hfirst hP
    -- The houses before have had their year.
    rw [List.append_cons] at hyear
    obtain ⟨hgranted, hrest⟩ := ih next.dice hsize hlater hyear
    rw [← List.append_cons] at hrest
    exact ⟨List.forall_mem_append.2 ⟨hown, hgranted⟩, hrest⟩

/-- From the families after the year on the market to those after the step. -/
theorem step {s : Simulation σ} (law : TurnLaw σ s.settings s.clock.year assumed granted P)
    (hsize : s.step.2.roster.size ≤ 2 ^ 32) (hassumed : ∀ op ∈ s.operations, assumed op)
    (hP : P (s.dynasties.flatMap Dynasty.family) s.dynasties s.passMarket.roster
      s.passMarket.market) :
    (∀ op ∈ Simulation.housesOperations s.settings s.clock.year s.dynasties s.passMarket.roster
      s.passMarket.market s.passMarket.dice, granted op) ∧
      P [] s.step.2.dynasties s.step.2.roster s.step.2.market := by
  obtain ⟨hdynasties, hroster, hmarket, -⟩ := s.families_step
  rw [hroster] at hsize
  rw [hdynasties, hroster, hmarket]
  have hnone : P (s.dynasties.flatMap Dynasty.family) ([] ++ s.dynasties) s.passMarket.roster
      s.passMarket.market := hP
  refine law.passHouses s.passMarket.dice hsize (fun op hop => hassumed op ?_) hnone
  unfold Simulation.operations
  rw [List.mem_append, List.mem_append, List.mem_append]
  exact .inl (.inl (.inr hop))

end TurnLaw

end Annals
