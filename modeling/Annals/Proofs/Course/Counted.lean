import Annals.Proofs.Course.Passage
import Annals.Proofs.Dice.Counted
/-!
# Years with dice that count

A year that is gone through with counting dice is the same year: the world, the report, the fault
and the dice themselves are those of the year without counting.

* `Passage.uncounted`: a stretch without the counts.
* `Rules.uncounted_passYear`: counting changes nothing of a year.
-/

namespace Annals

open Dice (Counted)

variable {σ α : Type}

/-! ## Stretches -/

namespace Passage

/-- The stretch without the counts. -/
def uncounted (p : Passage (Counted σ)) : Passage σ :=
  { world := p.world, dice := p.dice.dice, fired := p.fired, fault := p.fault }

/-- Something is done in the same way with counting dice and with the dice alone. -/
def SameCounted (step : World → Counted σ → Passage (Counted σ))
    (step' : World → σ → Passage σ) : Prop :=
  ∀ world dice, (step world dice).uncounted = step' world dice.dice

theorem uncounted_andThen (p : Passage (Counted σ))
    {next : World → Counted σ → Passage (Counted σ)} {next' : World → σ → Passage σ}
    (h : SameCounted next next') : (p.andThen next).uncounted = p.uncounted.andThen next' := by
  cases hfault : p.fault with
  | some fault =>
    have hfault' : p.uncounted.fault = some fault := hfault
    rw [andThen_of_fault hfault, andThen_of_fault hfault']
  | none =>
    have hfault' : p.uncounted.fault = none := hfault
    have hnext : next' p.uncounted.world p.uncounted.dice = (next p.world p.dice).uncounted :=
      (h p.world p.dice).symm
    rw [andThen_of_none hfault, andThen_of_none hfault', hnext]
    rfl

theorem uncounted_each {step : α → World → Counted σ → Passage (Counted σ)}
    {step' : α → World → σ → Passage σ} (h : ∀ item, SameCounted (step item) (step' item))
    (items : List α) : SameCounted (each step items) (each step' items) := by
  induction items with
  | nil =>
    intro world dice
    rfl
  | cons item rest ih =>
    intro world dice
    unfold each
    rw [uncounted_andThen _ ih, h item]

end Passage

/-! ## Moves -/

namespace Rules

open Passage (SameCounted)

variable [Dice σ]

/-- A chain can be continued in the same way, or not at all, with counting dice and without. -/
def SameDeeper : Option (Definition → Origin → World → Counted σ → Passage (Counted σ)) →
    Option (Definition → Origin → World → σ → Passage σ) → Prop :=
  Option.Rel fun fire fire' => ∀ d origin, SameCounted (fire d origin) (fire' d origin)

omit [Dice σ] in
theorem uncounted_withEvent (rules : Rules) (id referencedBy : String)
    {next : Definition → World → Counted σ → Passage (Counted σ)}
    {next' : Definition → World → σ → Passage σ} (h : ∀ d, SameCounted (next d) (next' d)) :
    SameCounted (rules.withEvent id referencedBy next) (rules.withEvent id referencedBy next') := by
  intro world dice
  unfold withEvent
  cases rules.catalog.find? id with
  | none => rfl
  | some d => exact h d world dice

theorem uncounted_follow (rules : Rules)
    {fire? : Option (Definition → Origin → World → Counted σ → Passage (Counted σ))}
    {fire?' : Option (Definition → Origin → World → σ → Passage σ)} (h : SameDeeper fire? fire?')
    (parent : Definition) (category : String) (f : FollowUp) :
    SameCounted (follow rules fire? parent category f)
      (follow rules fire?' parent category f) := by
  intro world dice
  unfold follow
  split
  case isTrue => rfl
  case isFalse =>
    rcases h with h | _
    · dsimp only
      rw [Counted.roll_eq]
      dsimp only
      split
      · rfl
      · exact rules.uncounted_withEvent f.event parent.id (fun d => h d _) world _
    · rfl

theorem uncounted_strike (rules : Rules)
    {fire? : Option (Definition → Origin → World → Counted σ → Passage (Counted σ))}
    {fire?' : Option (Definition → Origin → World → σ → Passage σ)} (h : SameDeeper fire? fire?')
    (category : String) (d : Definition) (origin : Origin) :
    SameCounted (strike rules fire? category d origin)
      (strike rules fire?' category d origin) := by
  intro world dice
  have hlinks := Passage.uncounted_each (rules.uncounted_follow h d category) d.followUps
  rw [strike_eq, strike_eq, Passage.uncounted_andThen _ hlinks]
  rfl

theorem uncounted_fire (rules : Rules) (category : String) (depth : Nat) (d : Definition)
    (origin : Origin) :
    SameCounted (σ := σ) (fire rules category depth d origin)
      (fire rules category depth d origin) := by
  induction depth generalizing d origin with
  | zero => exact rules.uncounted_strike .none category d origin
  | succ depth ih => exact rules.uncounted_strike (.some ih) category d origin

theorem uncounted_tryTrigger (rules : Rules) (t : Trigger) :
    SameCounted (σ := σ) (rules.tryTrigger t) (rules.tryTrigger t) := by
  intro world dice
  unfold tryTrigger
  rw [Counted.roll_eq]
  dsimp only
  split
  · rfl
  · exact rules.uncounted_withEvent t.event t.scheduledBy
      (fun d => rules.uncounted_fire t.category _ d _) world _

theorem uncounted_staysQuiet (rules : Rules) (dice : Counted σ) :
    (rules.staysQuiet dice).1 = (rules.staysQuiet dice.dice).1 ∧
      (rules.staysQuiet dice).2.dice = (rules.staysQuiet dice.dice).2 := by
  unfold staysQuiet
  split
  · exact ⟨rfl, rfl⟩
  · exact ⟨rfl, rfl⟩

theorem uncounted_scan (rules : Rules) (c : Category) :
    SameCounted (σ := σ) (rules.scan c) (rules.scan c) := by
  intro world dice
  obtain ⟨hquiet, hdice⟩ := rules.uncounted_staysQuiet dice
  unfold scan
  split
  case h_1 => rfl
  case h_2 first rest _ =>
    dsimp only
    rw [hquiet, ← hdice]
    split
    · rfl
    · rw [Counted.long_eq]
      exact rules.uncounted_fire c.name _ _ .scan world _

/-- Counting changes nothing of a year. -/
theorem uncounted_passYear (rules : Rules) (year : Year) :
    SameCounted (σ := σ) (rules.passYear year) (rules.passYear year) := by
  intro world dice
  by_cases hyear : year < world.year
  · rw [passYear_of_lt hyear, passYear_of_lt hyear]
    rfl
  · have htrials := Passage.uncounted_each (rules.uncounted_tryTrigger (σ := σ)) (world.due year)
    have hscans := Passage.uncounted_each (rules.uncounted_scan (σ := σ)) rules.catalog.categories
    rw [passYear_eq hyear, passYear_eq hyear, Passage.uncounted_andThen _ hscans, htrials]

end Rules

end Annals
