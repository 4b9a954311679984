import Annals.Proofs.Course.Queue
/-!
# Years that break off

A year takes all of its due triggers out of the queue before it tries the first of them. When one
of them brings up a fault the year breaks off: the triggers behind that one are not tried any more,
and nothing puts them back. What the queue has afterwards was not due, or was queued in the year.

* `Rules.rolled`: the due triggers that a year rolls for.
* `Rules.exists_broken`: where the trials of a list break off.
* `Rules.Leaves`: the triggers that delayed follow-ups leave. `Rules.queue_extends`: with a fault or
  without, a year puts nothing else behind its queue.
* `Rules.dropped_of_unknownEvent`: what becomes of the due triggers of a year with a fault.
-/

namespace Annals

namespace Rules

variable {σ : Type} [Dice σ] {rules : Rules} {year : Year} {world : World}

/-! ## Trials that break off -/

/-- The triggers of a list that are rolled for when they are tried in a row: none behind the first
whose trial has a fault. -/
def rolledOf (rules : Rules) : List Trigger → World → σ → List Trigger
  | [], _, _ => []
  | t :: rest, world, dice =>
    let p := rules.tryTrigger t world dice
    t :: if p.fault.isSome then [] else rolledOf rules rest p.world p.dice

/-- The due triggers that a year rolls for. -/
def rolled (rules : Rules) (year : Year) (world : World) (dice : σ) : List Trigger :=
  if year < world.year then [] else rules.rolledOf (world.due year) (world.entered year) dice

/-- Without a fault every trigger of a list is rolled for. -/
theorem rolledOf_eq_self {triggers : List Trigger} {dice : σ}
    (h : (Passage.each rules.tryTrigger triggers world dice).fault = none) :
    rules.rolledOf triggers world dice = triggers := by
  induction triggers generalizing world dice with
  | nil => rfl
  | cons t rest ih =>
    obtain ⟨hfault, hrest⟩ := Passage.fault_andThen_eq_none.1 h
    unfold rolledOf
    dsimp only
    rw [hfault, ih hrest]
    rfl

/-- The trials of a list break off at one trigger: those before it are tried to the end, its trial
has the fault and is the last thing that happens, and those behind it are not rolled for. -/
theorem exists_broken {triggers : List Trigger} {dice : σ} {fault : CourseFault}
    (h : (Passage.each rules.tryTrigger triggers world dice).fault = some fault) :
    ∃ (trials : List Trial) (t : Trigger) (dropped : List Trigger) (world' : World) (dice' : σ),
      triggers = trials.map (·.trigger) ++ t :: dropped ∧
      rules.rolledOf triggers world dice = trials.map (·.trigger) ++ [t] ∧
      Tried rules trials world dice world' dice' ∧
      Passage.each rules.tryTrigger triggers world dice =
        { rules.tryTrigger t world' dice' with
          fired := trials.flatMap (·.chain) ++ (rules.tryTrigger t world' dice').fired } := by
  induction triggers generalizing world dice with
  | nil => cases h
  | cons t rest ih =>
    unfold Passage.each at h ⊢
    unfold rolledOf
    dsimp only
    cases hfault : (rules.tryTrigger t world dice).fault with
    | some fault' =>
      refine ⟨[], t, rest, world, dice, rfl, rfl, .done world dice, ?_⟩
      rw [Passage.andThen_of_fault hfault]
      rfl
    | none =>
      rw [Passage.andThen_of_none hfault] at h ⊢
      obtain ⟨trials, t', dropped, world', dice', hsplit, hrolled, htried, hlast⟩ := ih h
      obtain ⟨trial, htrigger, hchain, hfirst⟩ := exists_trial hfault
      refine ⟨trial :: trials, t', dropped, world', dice', ?_, ?_, hfirst htried, ?_⟩
      · rw [List.map_cons, htrigger, hsplit]
        rfl
      · rw [List.map_cons, htrigger]
        exact congrArg (t :: ·) hrolled
      · rw [hlast, List.flatMap_cons, hchain, List.append_assoc]

/-! ## What a year queues -/

/-- A trigger that a delayed follow-up of the catalog leaves when it is dealt with in a year. -/
def Leaves (rules : Rules) (year : Year) (t : Trigger) : Prop :=
  ∃ d ∈ rules.catalog.events, ∃ f ∈ d.followUps, 0 < f.delay ∧
    ∃ category, t = triggerOf d category f year

/-- A stretch that puts nothing but such triggers behind the queue. -/
structure Extends (rules : Rules) (world : World) (p : Passage σ) : Prop where
  year_eq : p.world.year = world.year
  queue_eq : ∃ added, p.world.queue = world.queue ++ added ∧ ∀ t ∈ added, rules.Leaves world.year t

omit [Dice σ] in
theorem Extends.nothing {p : Passage σ} (hyear : p.world.year = world.year)
    (hqueue : p.world.queue = world.queue) : rules.Extends world p :=
  ⟨hyear, [], by rw [hqueue, List.append_nil], List.forall_mem_nil _⟩

omit [Dice σ] in
theorem Extends.composes (rules : Rules) :
    Passage.Composes fun world (_ : σ) p => rules.Extends world p where
  quiet := fun _ _ _ => .nothing rfl rfl
  append := by
    intro world dice p q hp _ hq
    obtain ⟨added, hqueue, hadded⟩ := hp.queue_eq
    obtain ⟨more, hqueue', hmore⟩ := hq.queue_eq
    rw [hp.year_eq] at hmore
    refine ⟨hq.year_eq.trans hp.year_eq, added ++ more, ?_,
      List.forall_mem_append.2 ⟨hadded, hmore⟩⟩
    show q.world.queue = _
    rw [hqueue', hqueue, List.append_assoc]

omit [Dice σ] in
/-- Every move of a chain extends the queue in this way, whether it ends in a fault or not. -/
theorem extends_law (rules : Rules) (category : String) :
    ChainLaw rules category fun world (_ : σ) p => rules.Extends world p where
  toComposes := Extends.composes rules
  struck := fun _ _ world _ =>
    .nothing (Effect.year_applyAll world _) (Effect.queue_applyAll world _)
  queued := by
    intro d f hd hf hdelay world dice
    refine ⟨rfl, [triggerOf d category f world.year],
      queue_schedule_triggerOf world d category f, ?_⟩
    exact List.forall_mem_singleton.2 ⟨d, hd, f, hf, hdelay, category, rfl⟩
  unknown := fun _ _ _ _ _ _ => .nothing rfl rfl

/-- With a fault or without, a year keeps the triggers that are not due, and puts behind them such
triggers only as delayed follow-ups leave. -/
theorem queue_extends (rules : Rules) (h : ¬ year < world.year) (dice : σ) :
    ∃ added, (rules.passYear year world dice).world.queue =
        world.queue.filter (fun t => year < t.due) ++ added ∧
      ∀ t ∈ added, rules.Leaves year t := by
  have hlaw : rules.Extends (world.entered year) (rules.passYear year world dice) :=
    passYear_law (Extends.composes rules) h
      (fun t _ => (extends_law rules t.category).tryTrigger fun _ _ _ _ => .nothing rfl rfl)
      (fun c hc => (extends_law rules c.name).scan hc) dice
  obtain ⟨added, hqueue, hadded⟩ := hlaw.queue_eq
  rw [World.queue_entered] at hqueue
  exact ⟨added, hqueue, hadded⟩

/-- A trigger that is left is not due in its year, unless the calendar ends. -/
theorem lt_due_of_leaves {t : Trigger} (h : rules.Leaves year t) :
    year < t.due ∨ year = Year.last := by
  obtain ⟨d, -, f, -, hdelay, category, rfl⟩ := h
  exact Year.lt_later hdelay

/-! ## Due triggers of a year with a fault -/

/-- What is due is not in the queue after the year, since neither the triggers that wait on nor
those that the year has left are due. -/
theorem not_mem_queue_of_due (rules : Rules) (hyear : ¬ year < world.year)
    (hlast : year ≠ Year.last) (dice : σ) {t : Trigger} (hdue : t.due ≤ year) :
    t ∉ (rules.passYear year world dice).world.queue := by
  obtain ⟨added, hqueue, hadded⟩ := rules.queue_extends hyear dice
  rw [hqueue, List.mem_append, not_or]
  refine ⟨fun hwaits => ?_, fun hnew => ?_⟩
  · have hlate : year < t.due := by simpa using (List.mem_filter.1 hwaits).2
    exact absurd hdue (Int32.not_le.2 hlate)
  · rcases lt_due_of_leaves (hadded t hnew) with hlate | hend
    · exact absurd hdue (Int32.not_le.2 hlate)
    · exact hlast hend

/-- The due triggers are rolled for or found in the queue, as often as they were due, only when none
is dropped. -/
theorem conserves_due_iff (rules : Rules) {dice : σ} {dropped : List Trigger}
    (hyear : ¬ year < world.year) (hlast : year ≠ Year.last)
    (hsplit : world.due year = rules.rolled year world dice ++ dropped) :
    (∀ t, (world.due year).count t ≤ (rules.rolled year world dice).count t +
      (rules.passYear year world dice).world.queue.count t) ↔ dropped = [] := by
  constructor
  · intro hkept
    refine List.eq_nil_iff_forall_not_mem.2 fun t ht => ?_
    have hdue : t.due ≤ year := by
      have hmem : t ∈ world.due year := hsplit ▸ List.mem_append_right _ ht
      simpa using (List.mem_filter.1 hmem).2
    have hcount := hkept t
    rw [List.count_eq_zero_of_not_mem (rules.not_mem_queue_of_due hyear hlast dice hdue), hsplit,
      List.count_append] at hcount
    have hpos := List.count_pos_iff.2 ht
    omega
  · rintro rfl t
    rw [hsplit, List.append_nil]
    exact Nat.le_add_right _ _

/-- A year in which an event is missing rolls for the due triggers in queue order up to the one in
whose trial it breaks off, and for all of them when it breaks off in the scan. The due triggers
behind are dropped: they are not rolled for, and behind the triggers that are not due the queue has
such only as were queued in the year. So none is lost only when none stood behind. -/
theorem dropped_of_unknownEvent (rules : Rules) {year : Year} {world : World} {dice : σ}
    {id referencedBy : String}
    (h : (rules.passYear year world dice).fault = some (.unknownEvent id referencedBy)) :
    ∃ dropped added : List Trigger,
      world.due year = rules.rolled year world dice ++ dropped ∧
      (rules.passYear year world dice).world.queue =
        world.queue.filter (fun t => year < t.due) ++ added ∧
      (∀ t ∈ added, rules.Leaves year t) ∧
      (dropped = [] ∨ ∃ (trials : List Trial) (t : Trigger) (world' : World) (dice' : σ),
        rules.rolled year world dice = trials.map (·.trigger) ++ [t] ∧
        Tried rules trials (world.entered year) dice world' dice' ∧
        rules.passYear year world dice =
          { rules.tryTrigger t world' dice' with
            fired := trials.flatMap (·.chain) ++ (rules.tryTrigger t world' dice').fired }) ∧
      (year ≠ Year.last →
        ((∀ t, (world.due year).count t ≤ (rules.rolled year world dice).count t +
          (rules.passYear year world dice).world.queue.count t) ↔ dropped = [])) := by
  have hyear : ¬ year < world.year := by
    intro hlt
    rw [passYear_of_lt hlt] at h
    cases h
  have hrolled : rules.rolled year world dice =
      rules.rolledOf (world.due year) (world.entered year) dice := if_neg hyear
  obtain ⟨added, hqueue, hadded⟩ := rules.queue_extends hyear dice
  rw [passYear_eq hyear] at h
  cases htrials :
      (Passage.each rules.tryTrigger (world.due year) (world.entered year) dice).fault with
  | none =>
    -- The year breaks off in the scan, behind all trials.
    have hall : world.due year = rules.rolled year world dice ++ [] := by
      rw [hrolled, rolledOf_eq_self htrials, List.append_nil]
    exact ⟨[], added, hall, hqueue, hadded, .inl rfl,
      fun hlast => rules.conserves_due_iff hyear hlast hall⟩
  | some fault =>
    obtain ⟨trials, t, dropped, world', dice', hdue, hbehind, htried, hbroken⟩ :=
      exists_broken htrials
    rw [← hrolled] at hbehind
    have hsplit : world.due year = rules.rolled year world dice ++ dropped := by
      rw [hdue, hbehind, List.append_assoc]
      rfl
    refine ⟨dropped, added, hsplit, hqueue, hadded,
      .inr ⟨trials, t, world', dice', hbehind, htried, ?_⟩,
      fun hlast => rules.conserves_due_iff hyear hlast hsplit⟩
    rw [passYear_eq hyear, Passage.andThen_of_fault htrials, hbroken]

/-- The trigger of an event that is in no catalog. -/
def ghost : Trigger :=
  { event := "ghost", due := 1001, chance := 1.0, category := "omens", scheduledBy := "haunting"
    scheduledIn := 1000 }

/-- A trigger that is due in the same year. -/
def squall : Trigger :=
  { event := "gale", due := 1001, chance := 1.0, category := "storms", scheduledBy := "echo"
    scheduledIn := 1000 }

/-- A world with a missing event in front of its queue. -/
def haunted : World := { World.blank 1000 with queue := [ghost, squall] }

theorem dropped_of_unknownEvent_haunted :
    (tolling.passYear 1001 haunted still).fault = some (.unknownEvent "ghost" "haunting") ∧
    tolling.rolled 1001 haunted still = [ghost] ∧ (1001 : Year) ≠ Year.last ∧
    ∃ dropped added : List Trigger, dropped = [squall] ∧
      (tolling.passYear 1001 haunted still).world.queue =
        haunted.queue.filter (fun t => 1001 < t.due) ++ added ∧
      (∀ t ∈ added, tolling.Leaves 1001 t) ∧
      ¬ ∀ t, (haunted.due 1001).count t ≤ (tolling.rolled 1001 haunted still).count t +
        (tolling.passYear 1001 haunted still).world.queue.count t := by
  have hfault : (tolling.passYear 1001 haunted still).fault =
      some (.unknownEvent "ghost" "haunting") := by decide +kernel
  have hrolled : tolling.rolled 1001 haunted still = [ghost] := by decide +kernel
  have hdue : haunted.due 1001 = [ghost] ++ [squall] := by decide +kernel
  have hlast : (1001 : Year) ≠ Year.last := by decide
  obtain ⟨dropped, added, hsplit, hqueue, hadded, -, hkept⟩ :=
    dropped_of_unknownEvent tolling hfault
  rw [hdue, hrolled] at hsplit
  have hdropped := (List.append_cancel_left hsplit).symm
  refine ⟨hfault, hrolled, hlast, dropped, added, hdropped, hqueue, hadded, fun hall => ?_⟩
  rw [(hkept hlast).1 hall] at hdropped
  cases hdropped

/-- The second trigger is due, is not rolled for, and is gone. -/
theorem squall_lost :
    (tolling.passYear 1001 haunted still).fault = some (.unknownEvent "ghost" "haunting") ∧
    squall ∈ haunted.due 1001 ∧ squall ∉ tolling.rolled 1001 haunted still ∧
    squall ∉ (tolling.passYear 1001 haunted still).world.queue := by decide +kernel

end Rules

end Annals
