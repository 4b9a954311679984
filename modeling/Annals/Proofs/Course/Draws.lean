import Annals.Proofs.Course.Agenda
import Annals.Proofs.Course.Counted
import Annals.Proofs.Course.Years
import Mathlib.Algebra.Ring.Nat
/-!
# What a year draws

A year rolls once for each due trigger, once for each category that could begin a chain when its
turn comes, unless it is certain to, and once for each follow-up at once of each event, unless the
event is as deep in its chain as events may be. It picks once for each chain that a category begins.
Nothing else is drawn, so each of these numbers can be read off what the year has done.

* `Task.rolls`: the rolls that a task is going to make; `Rules.owed`: those for the follow-ups of
  what has fired.
* `Agenda.Balanced`: the draws made so far and those still to be made, against what has been done.
* `Agenda.Balanced.perform`, `Agenda.Balanced.steps`: the balance is kept by each task, and so by a
  year.
* `Rules.draws_accounted`: the draws of a year.
-/

namespace Annals

open Dice (Counted)

/-! ## Rolls to come -/

/-- The rolls that a task is going to make, apart from those of a category. -/
def Task.rolls (rules : Rules) : Task → Nat
  | .attempt _ => 1
  | .scan _ => 0
  | .follow _ _ depth f => if f.delay = 0 ∧ depth < rules.settings.maxDepth.toNat then 1 else 0

theorem Task.rolls_follow (rules : Rules) (parent : Definition) (category : String) (depth : Nat)
    (f : FollowUp) :
    (Task.follow parent category depth f).rolls rules =
      if f.delay = 0 ∧ depth < rules.settings.maxDepth.toNat then 1 else 0 := rfl

namespace Rules

/-- The rolls for the follow-ups of events that fired: one for each follow-up at once of each event
behind which the chain may grow. -/
def owed (rules : Rules) (fired : List Firing) : Nat :=
  ((fired.filter fun f => f.depth < rules.settings.maxDepth.toNat).map fun f =>
    f.event.atOnce.length).sum

/-- The rolls of categories that could begin a chain. -/
def categoryRolls (rules : Rules) (ready : List Category) : Nat :=
  if rules.settings.categoryChance < 1.0 then ready.length else 0

theorem owed_append (rules : Rules) (fired fired' : List Firing) :
    rules.owed (fired ++ fired') = rules.owed fired + rules.owed fired' := by
  unfold owed
  rw [List.filter_append, List.map_append, List.sum_append_nat]

/-- The follow-ups of an event are going to make the rolls that it owes. -/
theorem sum_rolls_followUps (rules : Rules) (d : Definition) (category : String) (depth : Nat)
    (o : Occurrence) :
    ((d.followUps.map (Task.follow d category depth)).map (·.rolls rules)).sum =
      rules.owed [{ depth, event := d, occurrence := o }] := by
  have hall : ∀ fs : List FollowUp,
      ((fs.map (Task.follow d category depth)).map (·.rolls rules)).sum =
        if depth < rules.settings.maxDepth.toNat then (fs.filter fun f => f.delay = 0).length
        else 0 := by
    intro fs
    induction fs with
    | nil => exact (ite_self 0).symm
    | cons f fs ih =>
      rw [List.map_cons, List.map_cons, List.sum_cons, ih, Task.rolls_follow]
      by_cases hdepth : depth < rules.settings.maxDepth.toNat
      · by_cases hdelay : f.delay = 0
        · simp [hdelay, hdepth, Nat.add_comm]
        · simp [hdelay, hdepth]
      · simp [hdepth]
  rw [hall]
  unfold owed Definition.atOnce
  by_cases hdepth : depth < rules.settings.maxDepth.toNat
  · simp [hdepth]
  · simp [hdepth]

end Rules

/-! ## The balance of draws -/

namespace Agenda

variable {σ : Type}

/-- The draws that have been made add up. There have been as many rolls, with those still to come
and `owing` others, as there were due triggers, categories that could begin a chain, and follow-ups
of what has fired; and as many picks as there are picks in the report, but for `picked`. -/
structure Balanced (rules : Rules) (due owing picked : Nat) (a : Agenda (Counted σ)) : Prop where
  rolls_eq : a.dice.rolls + owing + (a.tasks.map (·.rolls rules)).sum =
    due + rules.categoryRolls a.ready + rules.owed a.fired
  longs_eq : a.dice.longs =
    (a.fired.filter fun f => f.occurrence.origin.isScan).length + picked
  coins_eq : a.dice.coins = 0
  shorts_eq : a.dice.shorts = 0
  named : ∀ f ∈ a.fired, f.occurrence.id = f.event.id

namespace Balanced

variable {rules : Rules} {due owing : Nat} {a : Agenda (Counted σ)}

/-- An event that fires owes the rolls of its follow-ups, and its report settles a pick. -/
theorem strike {origin : Origin}
    (h : Balanced rules due 0 (if origin.isScan then 1 else 0) a) (category : String)
    (depth : Nat) (d : Definition) :
    Balanced rules due 0 0 (a.strike category depth d origin) := by
  have htasks := rules.sum_rolls_followUps d category depth
    (.ofDefinition d category (Effect.applyAll a.world d.effects).1.year origin)
  have hrolls := h.rolls_eq
  have hlongs := h.longs_eq
  constructor
  · show a.dice.rolls + 0 + ((d.followUps.map (Task.follow d category depth) ++ a.tasks).map
      (·.rolls rules)).sum = due + rules.categoryRolls a.ready + rules.owed (a.fired ++ [_])
    rw [List.map_append, List.sum_append_nat, htasks, Rules.owed_append]
    omega
  · show a.dice.longs = ((a.fired ++ [_]).filter _).length + 0
    rw [hlongs, List.filter_append, List.length_append]
    cases hscan : origin.isScan with
    | true => simp [Occurrence.ofDefinition, hscan]
    | false => simp [Occurrence.ofDefinition, hscan]
  · exact h.coins_eq
  · exact h.shorts_eq
  · intro f hf
    rcases List.mem_append.1 hf with hf | hf
    · exact h.named f hf
    · cases List.mem_singleton.1 hf
      rfl

variable [Dice σ]

/-- A roll settles one that was owing. -/
theorem roll (h : Balanced rules due (owing + 1) 0 a) :
    Balanced rules due owing 0 { a with dice := (Dice.roll a.dice).2 } := by
  refine ⟨?_, h.longs_eq, h.coins_eq, h.shorts_eq, h.named⟩
  have hrolls := h.rolls_eq
  show a.dice.rolls + 1 + owing + _ = _
  dsimp only
  omega

/-- A call makes one roll. -/
theorem answer {call : Call} (h : Balanced rules due 1 0 a) (hcall : call.origin.isScan = false) :
    Balanced rules due 0 0 (a.answer rules call) := by
  have hview := answered rules call a
  generalize a.answer rules call = b at hview ⊢
  cases hview with
  | missed hroll => exact h.roll
  | unknown hroll hfind =>
    have hrolled := h.roll
    exact ⟨hrolled.rolls_eq, hrolled.longs_eq, hrolled.coins_eq, hrolled.shorts_eq,
      hrolled.named⟩
  | fired d hroll hfind =>
    refine Balanced.strike ?_ call.category call.depth d
    rw [hcall]
    exact h.roll

/-- A category that could begin a chain rolls, unless it is certain to begin one. -/
theorem staysQuiet (h : Balanced rules due 0 0 a) (c : Category) :
    Balanced rules due 0 0
      { a with ready := a.ready ++ [c], dice := (rules.staysQuiet a.dice).2 } := by
  have hrolls := h.rolls_eq
  unfold Rules.categoryRolls at hrolls
  by_cases hchance : rules.settings.categoryChance < 1.0
  · have hdice : (rules.staysQuiet a.dice).2 = (Dice.roll a.dice).2 := by
      unfold Rules.staysQuiet
      rw [if_pos hchance]
    rw [hdice]
    refine ⟨?_, h.longs_eq, h.coins_eq, h.shorts_eq, h.named⟩
    show a.dice.rolls + 1 + 0 + _ = _ + rules.categoryRolls (a.ready ++ [c]) + _
    unfold Rules.categoryRolls
    rw [if_pos hchance] at hrolls ⊢
    rw [List.length_append, List.length_singleton]
    dsimp only
    omega
  · have hdice : (rules.staysQuiet a.dice).2 = a.dice := by
      unfold Rules.staysQuiet
      rw [if_neg hchance]
    rw [hdice]
    refine ⟨?_, h.longs_eq, h.coins_eq, h.shorts_eq, h.named⟩
    show a.dice.rolls + 0 + _ = _ + rules.categoryRolls (a.ready ++ [c]) + _
    unfold Rules.categoryRolls
    rw [if_neg hchance] at hrolls ⊢
    exact hrolls

/-- A draw of a place stands for the pick that is going to be reported. -/
theorem long (h : Balanced rules due 0 0 a) (bound : Nat) :
    Balanced rules due 0 1 { a with dice := (Dice.long bound a.dice).2 } :=
  ⟨h.rolls_eq, congrArg (· + 1) h.longs_eq, h.coins_eq, h.shorts_eq, h.named⟩

/-- Each task makes the rolls that it was going to make. -/
theorem perform {task : Task} (h : Balanced rules due (task.rolls rules) 0 a) :
    Balanced rules due 0 0 (a.perform rules task) := by
  have hview := performed rules a task
  generalize a.perform rules task = b at hview ⊢
  cases hview with
  | attempted t => exact h.answer rfl
  | barren hnone => exact h
  | silent hsome hquiet => exact h.staysQuiet _
  | picked d hmem hquiet => exact ((h.staysQuiet _).long _).strike _ 0 d
  | queued hdelay =>
    rw [Task.rolls_follow, if_neg fun hboth => UInt32.pos_iff_ne_zero.1 hdelay hboth.1] at h
    exact ⟨h.rolls_eq, h.longs_eq, h.coins_eq, h.shorts_eq, h.named⟩
  | dropped hdelay hdeep =>
    rw [Task.rolls_follow, if_neg fun hboth => hdeep hboth.2] at h
    exact h
  | @called _ _ _ f hdelay hdepth =>
    have hatOnce : f.delay = 0 :=
      Decidable.byContradiction fun hne => hdelay (UInt32.pos_iff_ne_zero.2 hne)
    rw [Task.rolls_follow, if_pos ⟨hatOnce, hdepth⟩] at h
    exact h.answer rfl

/-- The balance is kept by any number of tasks. -/
theorem steps {n : Nat} {b : Agenda (Counted σ)} (hsteps : Steps rules n a b)
    (h : Balanced rules due 0 0 a) : Balanced rules due 0 0 b := by
  refine hsteps.keeps (fun a task _ hcons => perform ?_) h
  refine ⟨?_, hcons.longs_eq, hcons.coins_eq, hcons.shorts_eq, hcons.named⟩
  have hrolls := hcons.rolls_eq
  rw [List.map_cons, List.sum_cons] at hrolls
  dsimp only at hrolls
  omega

end Balanced

theorem balanced_start (rules : Rules) {year : Year} {world : World} (h : ¬ year < world.year)
    (dice : σ) :
    Balanced rules (world.due year).length 0 0 (start rules year world (Counted.start dice)) := by
  have hattempts : ((world.due year).map fun t => (Task.attempt t).rolls rules).sum =
      (world.due year).length := by
    show ((world.due year).map fun _ => 1).sum = _
    simp
  have hscans : (rules.catalog.categories.map fun c => (Task.scan c).rolls rules).sum = 0 := by
    show (rules.catalog.categories.map fun _ => 0).sum = _
    simp
  unfold start
  rw [if_neg h]
  refine ⟨?_, rfl, rfl, rfl, List.forall_mem_nil _⟩
  show 0 + 0 + (((world.due year).map Task.attempt ++
    rules.catalog.categories.map Task.scan).map (·.rolls rules)).sum =
      (world.due year).length + rules.categoryRolls [] + 0
  rw [List.map_append, List.sum_append_nat, List.map_map, List.map_map]
  show 0 + 0 + (((world.due year).map fun t => (Task.attempt t).rolls rules).sum +
    (rules.catalog.categories.map fun c => (Task.scan c).rolls rules).sum) = _
  rw [hattempts, hscans]
  simp [Rules.categoryRolls]

end Agenda

/-! ## A year -/

namespace Rules

variable {σ : Type} [Dice σ]

/-- Categories that cannot begin a chain do nothing. -/
theorem each_scan_eq_quiet (rules : Rules) {categories : List Category} {world : World}
    (h : ∀ c ∈ categories, eligible c world = []) (dice : σ) :
    Passage.each rules.scan categories world dice = .quiet world dice := by
  induction categories with
  | nil => rfl
  | cons c rest ih =>
    obtain ⟨hfirst, hrest⟩ := List.forall_mem_cons.1 h
    have hscan : rules.scan c world dice = .quiet world dice := by
      unfold scan
      rw [hfirst]
    unfold Passage.each
    rw [hscan, Passage.andThen_of_none rfl]
    exact ih hrest

/-- A year in which nothing is due and no category can begin a chain only enters the year. -/
theorem passYear_eq_quiet (rules : Rules) {year : Year} {world : World}
    (hyear : ¬ year < world.year) (hdue : world.due year = [])
    (hscan : ∀ c ∈ rules.catalog.categories, eligible c { world with year } = []) (dice : σ) :
    rules.passYear year world dice = .quiet { world with year } dice := by
  have hqueue : world.queue.filter (fun t => !(t.due ≤ year)) = world.queue := by
    refine List.filter_eq_self.2 fun t ht => ?_
    simpa using List.filter_eq_nil_iff.1 hdue t ht
  have hentered : world.entered year = { world with year } := by
    unfold World.entered
    rw [hqueue]
  rw [passYear_eq hyear, hdue, hentered]
  exact rules.each_scan_eq_quiet hscan dice

/-- The draws of a year are all accounted for. Dice that count go through the same year. They have
rolled once for each due trigger, once for each category that could begin a chain when its turn
came, if categories are not certain to, and once for each follow-up at once of each reported event
that is less deep in its chain than events may be. They have picked once for each pick that is
reported, and made no other draw. So a year in which nothing is due and no category can begin a
chain leaves the dice as they are and changes the year alone. -/
theorem draws_accounted (rules : Rules) (year : Year) (world : World) (dice : σ)
    (h : (rules.passYear year world dice).fault = none) :
    (∃ (n : Nat) (a : Agenda (Counted σ)),
      Agenda.Steps rules n (.start rules year world (.start dice)) a ∧ a.step rules = none ∧
      a.passage = rules.passYear year world (Counted.start dice) ∧
      a.passage.uncounted = rules.passYear year world dice ∧
      (∀ f ∈ a.fired, f.occurrence.id = f.event.id) ∧
      a.dice.rolls = (world.due year).length +
        (if rules.settings.categoryChance < 1.0 then a.ready.length else 0) +
        ((a.fired.filter fun f => f.depth < rules.settings.maxDepth.toNat).map fun f =>
          f.event.atOnce.length).sum ∧
      a.dice.longs =
        ((rules.passYear year world dice).fired.filter (·.origin.isScan)).length ∧
      a.dice.coins = 0 ∧ a.dice.shorts = 0) ∧
    (world.due year = [] →
      (∀ c ∈ rules.catalog.categories, eligible c { world with year } = []) →
        rules.passYear year world dice = .quiet { world with year } dice) := by
  have hyear := not_lt_of_passYear h
  have hsame : (rules.passYear year world (Counted.start dice)).uncounted =
      rules.passYear year world dice := rules.uncounted_passYear year world (Counted.start dice)
  refine ⟨?_, fun hdue hscan => rules.passYear_eq_quiet hyear hdue hscan dice⟩
  obtain ⟨n, a, hsteps, hend, hpassage, htasks⟩ :=
    Agenda.exists_halt rules year world (Counted.start dice)
  have hbalanced := (Agenda.balanced_start rules hyear dice).steps hsteps
  have hnone : (rules.passYear year world (Counted.start dice)).fault = none := by
    rw [← hsame] at h
    exact h
  have hfired : (rules.passYear year world dice).fired = a.fired.map (·.occurrence) := by
    rw [← hsame, ← hpassage]
    rfl
  refine ⟨n, a, hsteps, hend, hpassage, hpassage ▸ hsame, hbalanced.named, ?_, ?_,
    hbalanced.coins_eq, hbalanced.shorts_eq⟩
  · have hrolls := hbalanced.rolls_eq
    rw [htasks hnone] at hrolls
    exact hrolls
  · rw [hfired, List.filter_map, List.length_map]
    exact hbalanced.longs_eq

/-- Rules under which a category that could begin a chain rolls for it. -/
def wary : Rules := { tolling with settings := { maxDepth := 2, categoryChance := 0.5 } }

theorem draws_accounted_wary :
    (wary.passYear 1000 belfry still).fault = none ∧
    (wary.passYear 1000 belfry (Counted.start still)).dice.rolls = 5 ∧
    (wary.passYear 1000 belfry (Counted.start still)).dice.longs = 2 ∧
    ∃ (n : Nat) (a : Agenda (Counted Generator)),
      Agenda.Steps wary n (.start wary 1000 belfry (.start still)) a ∧
      a.passage.uncounted = wary.passYear 1000 belfry still ∧
      a.dice.rolls = (belfry.due 1000).length +
        (if wary.settings.categoryChance < 1.0 then a.ready.length else 0) +
        ((a.fired.filter fun f => f.depth < wary.settings.maxDepth.toNat).map fun f =>
          f.event.atOnce.length).sum := by
  have hok : (wary.passYear 1000 belfry still).fault = none := by decide +kernel
  obtain ⟨n, a, hsteps, -, -, hsame, -, hrolls, -⟩ := (draws_accounted wary 1000 belfry still hok).1
  exact ⟨hok, by decide +kernel, by decide +kernel, n, a, hsteps, hsame, hrolls⟩

end Rules

end Annals
