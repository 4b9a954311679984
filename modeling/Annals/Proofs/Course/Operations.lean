import Annals.Course
import Annals.Proofs.Operations
/-!
# The operations of a world's year

The years of the world hold their sums at the ends of the calendar. The one operation on words that
could wrap around is the count of how deep a chain of events has become: each link is one step
deeper than the event it follows.

* `Rules.fireOperations`: the depths of a chain; `Rules.passYearOperations`: those of a year.
* `Rules.inRange_passYearOperations`: no depth wraps around, since no chain is longer than allowed.
-/

namespace Annals

variable {σ α : Type}

/-- The operations of stretches in a row, up to the first one that ends in a fault. -/
def Passage.eachOperations (step : α → World → σ → Passage σ)
    (operations : α → World → σ → List Operation) : List α → World → σ → List Operation
  | [], _, _ => []
  | item :: rest, world, dice =>
    let p := step item world dice
    operations item world dice ++
      if p.fault.isSome then [] else eachOperations step operations rest p.world p.dice

theorem Passage.forall_eachOperations {Q : Operation → Prop} (step : α → World → σ → Passage σ)
    {operations : α → World → σ → List Operation} {items : List α}
    (h : ∀ item ∈ items, ∀ world dice, ∀ op ∈ operations item world dice, Q op) (world : World)
    (dice : σ) : ∀ op ∈ eachOperations step operations items world dice, Q op := by
  induction items generalizing world dice with
  | nil => exact List.forall_mem_nil _
  | cons item rest ih =>
    refine List.forall_mem_append.2 ⟨h item List.mem_cons_self world dice, ?_⟩
    split
    · exact List.forall_mem_nil _
    · exact ih (fun x hx => h x (List.mem_cons_of_mem _ hx)) _ _

namespace Rules

variable [Dice σ]

/-! ## Chains -/

/-- A follow-up that fires at once is one step deeper than the event before it. `next` are the
operations of the chain from there. -/
def followOperations (rules : Rules) (depth : UInt32)
    (next : Definition → World → σ → List Operation) (f : FollowUp) (world : World) (dice : σ) :
    List Operation :=
  if 0 < f.delay then []
  else
    let (roll, dice) := Dice.roll dice
    if roll.reaches f.chance then []
    else
      match rules.catalog.find? f.event with
      | none => []
      | some d => .succ depth :: next d world dice

/-- The operations of a chain that may become a number of steps deeper. At the greatest depth no
follow-up fires at once. -/
def fireOperations (rules : Rules) (category : String) :
    Nat → Definition → World → σ → List Operation
  | 0, _, _, _ => []
  | left + 1, definition, world, dice =>
    Passage.eachOperations
      (follow rules (some (fire rules category left)) definition category)
      (followOperations rules (rules.settings.maxDepth - UInt32.ofNat (left + 1))
        (fireOperations rules category left))
      definition.followUps (Effect.applyAll world definition.effects).1 dice

/-- The operations of a chain from its root. -/
def fireRootOperations (rules : Rules) (category : String) (definition : Definition)
    (world : World) (dice : σ) : List Operation :=
  fireOperations rules category rules.settings.maxDepth.toNat definition world dice

/-! ## Years -/

/-- The operations of a trigger that is due. -/
def triggerOperations (rules : Rules) (t : Trigger) (world : World) (dice : σ) : List Operation :=
  let (roll, dice) := Dice.roll dice
  if roll.reaches t.chance then []
  else
    match rules.catalog.find? t.event with
    | none => []
    | some d => rules.fireRootOperations t.category d world dice

/-- The operations of the scan of a category. -/
def scanOperations (rules : Rules) (category : Category) (world : World) (dice : σ) :
    List Operation :=
  match eligible category world with
  | [] => []
  | first :: rest =>
    let (quiet, dice) := rules.staysQuiet dice
    if quiet then []
    else
      let (place, dice) := Dice.long rest.length dice
      rules.fireRootOperations category.name ((first :: rest).get place) world dice

/-- The operations of a year of the world. -/
def passYearOperations (rules : Rules) (year : Year) (world : World) (dice : σ) :
    List Operation :=
  if year < world.year then []
  else
    let (due, world) := { world with year }.takeDue year
    let p := Passage.each rules.tryTrigger due world dice
    Passage.eachOperations rules.tryTrigger rules.triggerOperations due world dice ++
      if p.fault.isSome then []
      else Passage.eachOperations rules.scan rules.scanOperations rules.catalog.categories p.world
        p.dice

/-! ## Depths -/

/-- The depth of an event from which a chain may still grow is below the greatest one. -/
theorem inRange_succ_depth {greatest : UInt32} {left : Nat} (h : left + 1 ≤ greatest.toNat) :
    (Operation.succ (greatest - UInt32.ofNat (left + 1))).InRange := by
  have hgreatest := UInt32.toNat_lt greatest
  have hleft : (UInt32.ofNat (left + 1)).toNat = left + 1 :=
    UInt32.toNat_ofNat_of_lt' (Nat.lt_of_le_of_lt h hgreatest)
  have hle : UInt32.ofNat (left + 1) ≤ greatest := by
    rw [UInt32.le_iff_toNat_le, hleft]
    exact h
  rw [Operation.inRange_succ, UInt32.toNat_sub_of_le _ _ hle, hleft]
  omega

theorem inRange_fireOperations (rules : Rules) (category : String) (left : Nat)
    (h : left ≤ rules.settings.maxDepth.toNat) (d : Definition) (world : World) (dice : σ) :
    ∀ op ∈ fireOperations rules category left d world dice, op.InRange := by
  induction left generalizing d world dice with
  | zero => exact List.forall_mem_nil _
  | succ left ih =>
    refine Passage.forall_eachOperations _ (fun f _ world dice op hop => ?_) _ _
    -- The event follows at once and is in the catalog, or there is nothing to show.
    unfold followOperations at hop
    split at hop
    case isTrue => exact absurd hop List.not_mem_nil
    case isFalse =>
      dsimp only at hop
      split at hop
      case isTrue => exact absurd hop List.not_mem_nil
      case isFalse =>
        split at hop
        case h_1 => exact absurd hop List.not_mem_nil
        case h_2 next hnext =>
          rcases List.mem_cons.1 hop with rfl | hop
          · exact inRange_succ_depth h
          · exact ih (Nat.le_of_succ_le h) next world _ op hop

theorem inRange_fireRootOperations (rules : Rules) (category : String) (d : Definition)
    (world : World) (dice : σ) :
    ∀ op ∈ rules.fireRootOperations category d world dice, op.InRange :=
  inRange_fireOperations rules category _ (Nat.le_refl _) d world dice

theorem inRange_triggerOperations (rules : Rules) (t : Trigger) (world : World) (dice : σ) :
    ∀ op ∈ rules.triggerOperations t world dice, op.InRange := by
  unfold triggerOperations
  dsimp only
  split
  · exact List.forall_mem_nil _
  · split
    · exact List.forall_mem_nil _
    · exact rules.inRange_fireRootOperations t.category _ world _

theorem inRange_scanOperations (rules : Rules) (category : Category) (world : World) (dice : σ) :
    ∀ op ∈ rules.scanOperations category world dice, op.InRange := by
  unfold scanOperations
  split
  · exact List.forall_mem_nil _
  · dsimp only
    split
    · exact List.forall_mem_nil _
    · exact rules.inRange_fireRootOperations category.name _ world _

/-- Whatever the settings, the catalog and the world, no depth of a year wraps around. -/
theorem inRange_passYearOperations (rules : Rules) (year : Year) (world : World) (dice : σ) :
    ∀ op ∈ rules.passYearOperations year world dice, op.InRange := by
  unfold passYearOperations
  split
  · exact List.forall_mem_nil _
  · refine List.forall_mem_append.2 ⟨?_, ?_⟩
    · exact Passage.forall_eachOperations _ (fun t _ => rules.inRange_triggerOperations t) _ _
    · split
      · exact List.forall_mem_nil _
      · exact Passage.forall_eachOperations _ (fun c _ => rules.inRange_scanOperations c) _ _

end Rules

end Annals
