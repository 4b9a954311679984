import Annals.Proofs.Family.Vigour
import Annals.Proofs.Simulation.Operations
import Annals.Proofs.Simulation.Whereabouts
/-!
# Runs without overflow

With the usual settings of family life no operation of a run wraps around. A founding within the
calendar begins with ages and health within bounds, every year keeps them, and the clock stops at
the end of the calendar at the latest.

* `Simulation.Vigorous`: everyone is within bounds before a year.
* `Simulation.vigorous_ofConfig`, `Simulation.Vigorous.step`: the founding, and a year with the
  clock not finished.
* `Simulation.operations_inRange`: no operation of the founding or of a run wraps around.
-/

namespace Annals.Simulation

variable {σ : Type} [Dice σ] {s : Simulation σ}

/-- Before a year everyone is within the bounds, and everyone's turn is still to come. -/
def Vigorous (s : Simulation σ) : Prop :=
  Vigour 36 s.clock.year (s.dynasties.flatMap Dynasty.family) s.dynasties s.roster s.market

/-- The founding wraps nothing around and leaves everyone within the bounds. -/
theorem vigorous_ofConfig {c : Config} (hfamily : c.family = {})
    (hstart : -2 ^ 31 + 40 ≤ c.run.startYear.toInt) (catalog : Catalog) (dice : σ) :
    (∀ op ∈ foundingOperations c dice, op.InRange) ∧ (ofConfig c catalog dice).Vigorous := by
  have hhealth : c.family.ageing.initialHealth = 100 := by rw [hfamily]
  obtain ⟨hops, hfounded⟩ :=
    Dynasty.foundAll_inRange hstart c.run.dynasties dice (.empty c.run.startYear)
  rw [← hhealth] at hops hfounded
  exact ⟨hops, hfounded.vigour _⟩

/-- A year on the market wraps nothing around and leaves everyone within the bounds. -/
theorem Vigorous.passMarket (hv : s.Vigorous) (hsettings : s.settings = {})
    (hstart : -2 ^ 31 + 30 ≤ s.clock.year.toInt) {home : PersonId → Option PersonId}
    (hs : Settled home s.dynasties s.roster s.market)
    (hsize : s.passMarket.roster.size ≤ 2 ^ 32) :
    (∀ op ∈ s.market.updateOperations s.settings s.clock.year s.roster s.dice, op.InRange) ∧
      Vigour 35 s.clock.year (s.dynasties.flatMap Dynasty.family) s.dynasties s.passMarket.roster
        s.passMarket.market := by
  unfold Simulation.passMarket at hsize ⊢
  rw [hsettings] at hsize ⊢
  exact hv.update hs hstart s.dice hsize

/-- A step from within the bounds, with a year left, wraps nothing around and stays within them. -/
theorem Vigorous.step (hv : s.Vigorous) (hsettings : s.settings = {})
    (hclock : s.step.2.clock = s.clock.tick) (hleft : s.clock.isFinished = false)
    (hstart : -2 ^ 31 + 30 ≤ s.clock.year.toInt)
    (hsettled : Settlement s.dynasties s.roster s.market)
    (hsize : s.step.2.roster.size ≤ 2 ^ 32) :
    (∀ op ∈ s.operations, op.InRange) ∧ s.step.2.Vigorous := by
  have htick := Clock.toInt_tick hleft
  have hmarketSize := Nat.le_trans s.continues_passDynasties.size_le hsize
  obtain ⟨-, ⟨home, hs⟩, -⟩ := hsettled (Nat.le_trans s.continues_passMarket.size_le hmarketSize)
  obtain ⟨hmarket, hv'⟩ := hv.passMarket hsettings hstart hs hmarketSize
  obtain ⟨hr', hs', -⟩ := settled_law.passMarket hsettled hmarketSize
  have hlaw : TurnLaw σ s.settings s.clock.year (fun _ => True) Operation.InRange
      fun waiting ds r m =>
        r.Genealogy ∧ (∃ home, Settled home ds r m) ∧ Vigour 35 s.clock.year waiting ds r m := by
    rw [hsettings]
    exact vigour_turnLaw σ s.clock.year
  obtain ⟨hhouses, -, -, hend⟩ := hlaw.step hsize (fun _ _ => trivial) ⟨hr', hs', hv'⟩
  constructor
  · refine List.forall_mem_append.2 ⟨List.forall_mem_append.2
      ⟨List.forall_mem_append.2 ⟨hmarket, hhouses⟩, ?world⟩, ?clock⟩
    case world =>
      split
      · exact List.forall_mem_nil _
      · exact Rules.inRange_passYearOperations _ _ _ _
    case clock =>
      split
      · refine List.forall_mem_singleton.2 (Operation.inRange_add.2 ?_)
        have hlow := Int32.le_toInt s.clock.year
        have hhigh := Int32.toInt_lt s.clock.tick.year
        have hone : (1 : Int32).toInt = 1 := rfl
        omega
      · exact List.forall_mem_nil _
  · refine hend.newYear ?_
    rw [hclock]
    exact htick

section Runs

variable {c : Config} {catalog : Catalog} {k : Nat}

/-- A step before the end of the clock, from within the bounds. -/
theorem Vigorous.step_after (hfamily : c.family = {})
    (hstart : -2 ^ 31 + 40 ≤ c.run.startYear.toInt) (hcat : catalog.Loaded) (dice : σ)
    (hk : k < (ofConfig c catalog dice).clock.remaining)
    (hids : ((ofConfig c catalog dice).after (k + 1)).roster.size ≤ 2 ^ 32)
    (hv : ((ofConfig c catalog dice).after k).Vigorous) :
    (∀ op ∈ ((ofConfig c catalog dice).after k).operations, op.InRange) ∧
      ((ofConfig c catalog dice).after (k + 1)).Vigorous := by
  have hsound := sound_ofConfig c hcat dice
  obtain ⟨hon, hyear, hremaining⟩ :=
    hsound.onTime_after (onTime_ofConfig c catalog dice) (Nat.le_of_lt hk)
  obtain ⟨-, -, hclock⟩ := (hsound.after k).step_ok hon
  have hleft : ((ofConfig c catalog dice).after k).clock.isFinished = false := by
    rw [Clock.isFinished_eq_false_iff, hremaining]
    exact Nat.sub_pos_of_lt hk
  have hfirst : (ofConfig c catalog dice).clock.year = c.run.startYear := rfl
  rw [hfirst] at hyear
  exact hv.step ((settings_after _ k).trans hfamily) hclock hleft (by omega)
    (settled_law.after c catalog dice k) hids

/-- Until the end of the clock everyone is within the bounds, as long as ids are left. -/
theorem vigorous_after (hfamily : c.family = {}) (hstart : -2 ^ 31 + 40 ≤ c.run.startYear.toInt)
    (hcat : catalog.Loaded) (dice : σ) (hk : k ≤ (ofConfig c catalog dice).clock.remaining)
    (hids : ((ofConfig c catalog dice).after k).roster.size ≤ 2 ^ 32) :
    ((ofConfig c catalog dice).after k).Vigorous := by
  induction k with
  | zero => exact (vigorous_ofConfig hfamily hstart catalog dice).2
  | succ k ih =>
    have hbefore := Nat.le_trans (continues_step _).size_le hids
    exact (Vigorous.step_after hfamily hstart hcat dice hk hids
      (ih (Nat.le_of_succ_le hk) hbefore)).2

end Runs

/-- With the usual settings of family life, from a first year that leaves room for the founders to
have been born, whatever the dynasties, the rules of the world, the number of years and the dice:
no operation on words wraps around, neither at the founding nor in a run over a loaded catalog, as
long as no id has been given out twice. -/
theorem operations_inRange {c : Config} (hfamily : c.family = {})
    (hstart : -2 ^ 31 + 40 ≤ c.run.startYear.toInt) {catalog : Catalog} (hcat : catalog.Loaded)
    (dice : σ) :
    let s := ofConfig c catalog dice
    (∀ op ∈ foundingOperations c dice, op.InRange) ∧
    (s.run.last.roster.size ≤ 2 ^ 32 → ∀ op ∈ s.runOperations, op.InRange) ∧
    ∀ n, (runFor n s).last.roster.size ≤ 2 ^ 32 → ∀ op ∈ s.runForOperations n, op.InRange := by
  intro s
  have hrun : ∀ n, (runFor n s).last.roster.size ≤ 2 ^ 32 →
      ∀ op ∈ s.runForOperations n, op.InRange := by
    intro n hids op hop
    obtain ⟨k, hk, hop, hsize⟩ := (sound_ofConfig c hcat dice).mem_runForOperations
      (onTime_ofConfig c catalog dice) hop
    have hids' := Nat.le_trans hsize hids
    have hv := vigorous_after hfamily hstart hcat dice (Nat.le_of_lt hk)
      (Nat.le_trans (continues_step _).size_le hids')
    exact (hv.step_after hfamily hstart hcat dice hk hids').1 op hop
  exact ⟨(vigorous_ofConfig hfamily hstart catalog dice).1, hrun _, hrun⟩

/-- A configuration that begins in the first year that leaves room for its founders. -/
def firstDays : Config :=
  { run := { startYear := Int32.minValue + 40, years := 3
             dynasties := ["House Nerdival", "House Vael"] } }

/-- In the first three years that a run can have, the founders, whose years of birth are among the
first ones of the calendar, are asked for their ages, and nothing wraps around. -/
theorem operations_inRange_firstDays :
    let s := ofConfig firstDays .bells Rules.still
    firstDays.family = {} ∧ firstDays.run.startYear.toInt = -2 ^ 31 + 40 ∧ Catalog.bells.Loaded ∧
    s.run.last.roster.size ≤ 2 ^ 32 ∧
    (foundingOperations firstDays Rules.still).length = 4 ∧
    (∀ op ∈ foundingOperations firstDays Rules.still, op.InRange) ∧
    Operation.sub firstDays.run.startYear (Int32.minValue + 20) ∈ s.runOperations ∧
    ∀ op ∈ s.runOperations, op.InRange := by
  have hfamily : firstDays.family = {} := rfl
  have hstart : firstDays.run.startYear.toInt = -2 ^ 31 + 40 := by decide
  have hlength : (foundingOperations firstDays Rules.still).length = 4 := by decide +kernel
  have hids : (ofConfig firstDays .bells Rules.still).run.last.roster.size ≤ 2 ^ 32 := by
    decide +kernel
  have hage : Operation.sub firstDays.run.startYear (Int32.minValue + 20) ∈
      (ofConfig firstDays .bells Rules.still).runOperations := by decide +kernel
  obtain ⟨hfounding, hrun, -⟩ :=
    operations_inRange hfamily (Int.le_of_eq hstart.symm) Catalog.bells_loaded Rules.still
  exact ⟨hfamily, hstart, Catalog.bells_loaded, hids, hlength, hfounding, hage, hrun hids⟩

end Annals.Simulation
