import Annals.Proofs.Calendar
import Annals.Proofs.Catalog.Loaded
import Annals.Proofs.Course.Years
/-!
# The queue of triggers

Triggers are queued by events at any depth of a chain, while the due ones are being tried and while
categories are being scanned. Whatever the order, each event that fires adds one trigger for each of
its delayed follow-ups, and a trigger leaves the queue in the first later year that reaches it.

* `Rules.queuedBy`: the triggers that a reported event leaves.
* `Rules.Tried`: triggers tried one after the other, each with one roll.
* `Rules.Accounts`: a stretch adds to the queue what its report says, and nothing else.
* `Rules.queue_perm_waiting`, `Rules.due_perm_reached`: the queue and the due triggers of each year
  of a sequence, in terms of when triggers were queued.
-/

namespace Annals

/-! ## Trials -/

/-- A trigger that was tried: its roll, and the chain that it set off, which is empty when the roll
was too high. -/
structure Trial where
  trigger : Trigger
  roll : Roll
  chain : List Occurrence

namespace Rules

variable {σ : Type} [Dice σ]

/-- Triggers tried one after the other, from a world and dice to a world and dice. Each is rolled
once, and its event fires when the roll is below its chance. -/
inductive Tried (rules : Rules) : List Trial → World → σ → World → σ → Prop where
  | done (world : World) (dice : σ) : Tried rules [] world dice world dice
  | missed {t : Trigger} {trials : List Trial} {world world' : World} {dice dice' : σ}
      (hroll : (Dice.roll dice).1.reaches t.chance = true)
      (hrest : Tried rules trials world (Dice.roll dice).2 world' dice') :
      Tried rules ({ trigger := t, roll := (Dice.roll dice).1, chain := [] } :: trials)
        world dice world' dice'
  | fired {t : Trigger} {d : Definition} {p : Passage σ} {trials : List Trial}
      {world world' : World} {dice dice' : σ}
      (hroll : (Dice.roll dice).1.reaches t.chance = false)
      (hfind : rules.catalog.find? t.event = some d)
      (hchain : rules.fireRoot t.category d (.delayed t.scheduledBy t.scheduledIn) world
        (Dice.roll dice).2 = p)
      (hfault : p.fault = none)
      (hrest : Tried rules trials p.world p.dice world' dice') :
      Tried rules ({ trigger := t, roll := (Dice.roll dice).1, chain := p.fired } :: trials)
        world dice world' dice'

/-- A trigger whose trial has no fault comes first, and others can be tried from where it ends. -/
theorem exists_trial {rules : Rules} {t : Trigger} {world : World} {dice : σ}
    (h : (rules.tryTrigger t world dice).fault = none) :
    ∃ trial : Trial, trial.trigger = t ∧ trial.chain = (rules.tryTrigger t world dice).fired ∧
      ∀ {trials : List Trial} {world' : World} {dice' : σ},
        Tried rules trials (rules.tryTrigger t world dice).world
          (rules.tryTrigger t world dice).dice
          world' dice' → Tried rules (trial :: trials) world dice world' dice' := by
  have hview := attempted rules t world dice
  generalize rules.tryTrigger t world dice = p at h hview ⊢
  cases hview with
  | missed hroll => exact ⟨_, rfl, rfl, .missed hroll⟩
  | unknown hroll hfind => cases h
  | fired d hroll hfind => exact ⟨_, rfl, rfl, .fired hroll hfind rfl h⟩

/-- When no fault comes up, all triggers of a list are tried, in the order of the list. -/
theorem exists_tried (rules : Rules) (triggers : List Trigger) (world : World) (dice : σ)
    (h : (Passage.each rules.tryTrigger triggers world dice).fault = none) :
    ∃ trials : List Trial, trials.map (·.trigger) = triggers ∧
      (Passage.each rules.tryTrigger triggers world dice).fired = trials.flatMap (·.chain) ∧
      Tried rules trials world dice (Passage.each rules.tryTrigger triggers world dice).world
        (Passage.each rules.tryTrigger triggers world dice).dice := by
  induction triggers generalizing world dice with
  | nil => exact ⟨[], rfl, rfl, .done world dice⟩
  | cons t rest ih =>
    unfold Passage.each at h ⊢
    obtain ⟨hfault, hrest⟩ := Passage.fault_andThen_eq_none.1 h
    obtain ⟨trial, htrigger, hchain, hfirst⟩ := exists_trial hfault
    obtain ⟨trials, htriggers, hfired, htried⟩ := ih _ _ hrest
    rw [Passage.andThen_of_none hfault]
    refine ⟨trial :: trials, ?_, ?_, hfirst htried⟩
    · rw [List.map_cons, htrigger, htriggers]
    · rw [List.flatMap_cons, hchain, ← hfired]

/-! ## What a stretch queues -/

/-- The triggers that an event reported in a year leaves: one for each delayed follow-up of its
definition, under the category of its chain. -/
def queuedBy (rules : Rules) (year : Year) (o : Occurrence) : List Trigger :=
  match rules.catalog.find? o.id with
  | some d => (d.followUps.filter fun f => 0 < f.delay).map fun f =>
      { event := f.event, due := year.later f.delay, chance := f.chance, category := o.category
        scheduledBy := o.id, scheduledIn := year }
  | none => []

/-- A stretch of a year that adds to the queue some triggers and those that its report leaves. -/
structure Accounts (rules : Rules) (year : Year) (extra : List Trigger) (world : World)
    (p : Passage σ) : Prop where
  year_eq : p.world.year = year
  queue_eq : p.fault = none → ∃ added, p.world.queue = world.queue ++ added ∧
    added.Perm (extra ++ p.fired.flatMap (rules.queuedBy year))

namespace Accounts

variable {rules : Rules} {year : Year} {world : World}

omit [Dice σ] in
theorem quiet (hyear : world.year = year) (dice : σ) :
    Accounts rules year [] world (.quiet world dice) where
  year_eq := hyear
  queue_eq := fun _ => ⟨[], by simp [Passage.quiet], .refl _⟩

omit [Dice σ] in
/-- The triggers of two stretches in a row are those of the first and those of the second. -/
theorem andThen {extra extra' : List Trigger} {p : Passage σ} {next : World → σ → Passage σ}
    (hp : Accounts rules year extra world p)
    (hnext : p.fault = none → Accounts rules year extra' p.world (next p.world p.dice)) :
    Accounts rules year (extra ++ extra') world (p.andThen next) := by
  cases hf : p.fault with
  | some fault =>
    rw [Passage.andThen_of_fault hf]
    refine ⟨hp.year_eq, fun hnone => ?_⟩
    rw [hf] at hnone
    cases hnone
  | none =>
    have hq := hnext hf
    rw [Passage.andThen_of_none hf]
    refine ⟨hq.year_eq, fun hfault => ?_⟩
    obtain ⟨added, hqueue, hadded⟩ := hp.queue_eq hf
    obtain ⟨added', hqueue', hadded'⟩ := hq.queue_eq hfault
    refine ⟨added ++ added', ?_, ?_⟩
    · rw [hqueue', hqueue, List.append_assoc]
    · rw [List.flatMap_append]
      refine (hadded.append hadded').trans ?_
      -- Only the second extra and the first report change places.
      simp only [List.append_assoc]
      exact (List.perm_append_comm_assoc ..).append_left extra

omit [Dice σ] in
theorem each {α : Type} {extra : α → List Trigger} {step : α → World → σ → Passage σ}
    (items : List α)
    (hstep : ∀ item ∈ items, ∀ world dice, world.year = year →
      Accounts rules year (extra item) world (step item world dice)) :
    ∀ world dice, world.year = year →
      Accounts rules year (items.flatMap extra) world (Passage.each step items world dice) := by
  induction items with
  | nil => exact fun world dice hyear => quiet hyear dice
  | cons item rest ih =>
    intro world dice hyear
    have hfirst := hstep item List.mem_cons_self world dice hyear
    rw [List.flatMap_cons]
    refine hfirst.andThen fun _ => ?_
    exact ih (fun x hx => hstep x (List.mem_cons_of_mem _ hx)) _ _ hfirst.year_eq

omit [Dice σ] in
/-- Stretches in a row queue what their reports leave when each of them does. -/
theorem each_nil {α : Type} {step : α → World → σ → Passage σ} (items : List α)
    (hstep : ∀ item ∈ items, ∀ world dice, world.year = year →
      Accounts rules year [] world (step item world dice)) (world : World) (dice : σ)
    (hyear : world.year = year) :
    Accounts rules year [] world (Passage.each step items world dice) := by
  have hnil : items.flatMap (fun _ => ([] : List Trigger)) = [] :=
    List.flatMap_eq_nil_iff.2 fun _ _ => rfl
  have hall := each items hstep world dice hyear
  rwa [hnil] at hall

end Accounts

/-! ## Chains, trials and scans -/

/-- The trigger of a follow-up, when it has a delay. -/
def delayedTrigger (d : Definition) (category : String) (year : Year) (f : FollowUp) :
    List Trigger :=
  if 0 < f.delay then [triggerOf d category f year] else []

theorem queuedBy_ofDefinition {rules : Rules} {d : Definition}
    (hfind : rules.catalog.find? d.id = some d) (category : String) (year year' : Year)
    (origin : Origin) :
    rules.queuedBy year (.ofDefinition d category year' origin) =
      d.followUps.flatMap (delayedTrigger d category year) := by
  have hlist : ∀ fs : List FollowUp,
      (fs.filter fun f => 0 < f.delay).map (fun f => triggerOf d category f year) =
        fs.flatMap (delayedTrigger d category year) := by
    intro fs
    induction fs with
    | nil => rfl
    | cons f fs ih =>
      by_cases hdelay : 0 < f.delay
      · simp [delayedTrigger, hdelay, ih]
      · simp [delayedTrigger, hdelay, ih]
  unfold queuedBy Occurrence.ofDefinition
  rw [hfind]
  exact hlist d.followUps

/-- The trigger of a follow-up is never set for a past year, so it is queued as it is. -/
theorem queue_schedule_triggerOf (world : World) (d : Definition) (category : String)
    (f : FollowUp) :
    (world.schedule (triggerOf d category f world.year)).queue =
      world.queue ++ [triggerOf d category f world.year] := by
  have hlate : ¬ (triggerOf d category f world.year).due < world.year := by
    rw [Int32.not_lt]
    exact Year.le_later world.year f.delay
  unfold World.schedule
  rw [if_neg hlate]

/-- A follow-up queues its trigger or, when it has no delay, what the link behind it queues. -/
theorem accounts_follow {rules : Rules} {year : Year}
    {fire? : Option (Definition → Origin → World → σ → Passage σ)}
    (hfire : ∀ fire, fire? = some fire → ∀ d ∈ rules.catalog.events, ∀ origin world dice,
      world.year = year → Accounts rules year [] world (fire d origin world dice))
    (d : Definition) (category : String) (f : FollowUp) (world : World) (dice : σ)
    (hyear : world.year = year) :
    Accounts rules year (delayedTrigger d category year f) world
      (follow rules fire? d category f world dice) := by
  have hview := followed rules fire? d category f world dice
  generalize follow rules fire? d category f world dice = p at hview ⊢
  unfold delayedTrigger
  cases hview with
  | queued hdelay =>
    rw [if_pos hdelay]
    refine ⟨hyear, fun _ => ⟨[triggerOf d category f year], ?_, .refl _⟩⟩
    rw [← hyear]
    exact queue_schedule_triggerOf world d category f
  | dropped hdelay hnone =>
    rw [if_neg hdelay]
    exact .quiet hyear _
  | missed fire hdelay hsome hroll =>
    rw [if_neg hdelay]
    exact .quiet hyear _
  | unknown fire hdelay hsome hroll hfind =>
    refine ⟨hyear, fun hfault => ?_⟩
    cases hfault
  | fired fire next hdelay hsome hroll hfind =>
    rw [if_neg hdelay]
    exact hfire fire hsome next (mem_events_of_find? hfind) _ _ _ hyear

/-- A chain queues what its report leaves: the events of a loaded catalog are found by their ids,
so the report of an event names its follow-ups. -/
theorem accounts_fire {rules : Rules} (hcat : rules.catalog.Loaded) (year : Year)
    (category : String) (depth : Nat) :
    ∀ d ∈ rules.catalog.events, ∀ origin world (dice : σ), world.year = year →
      Accounts rules year [] world (fire rules category depth d origin world dice) := by
  -- The induction is on the depth of the chain; the year is kept by every link.
  refine fire_induction (P := fun _ _ world _ p => world.year = year →
    Accounts rules year [] world p) ?_ depth
  intro fire? hfire d hd origin world dice hyear
  have hstruck : (struck category d origin world dice).world.year = year :=
    (Effect.year_applyAll world d.effects).trans hyear
  have hlinks := Accounts.each d.followUps (fun f _ => accounts_follow hfire d category f) _ dice
    hstruck
  rw [strike_eq, Passage.andThen_of_none rfl]
  refine ⟨hlinks.year_eq, fun hfault => ?_⟩
  obtain ⟨added, hqueue, hadded⟩ := hlinks.queue_eq hfault
  refine ⟨added, ?_, ?_⟩
  · refine hqueue.trans ?_
    rw [show (struck category d origin world dice).world.queue = world.queue from
      Effect.queue_applyAll world d.effects]
  · rw [← queuedBy_ofDefinition (hcat.find?_of_mem hd) category year
      (struck category d origin world dice).world.year origin] at hadded
    exact hadded

theorem accounts_tryTrigger {rules : Rules} (hcat : rules.catalog.Loaded) {year : Year}
    (t : Trigger) (world : World) (dice : σ) (hyear : world.year = year) :
    Accounts rules year [] world (rules.tryTrigger t world dice) := by
  have hview := attempted rules t world dice
  generalize rules.tryTrigger t world dice = p at hview ⊢
  cases hview with
  | missed hroll => exact .quiet hyear _
  | unknown hroll hfind =>
    refine ⟨hyear, fun hfault => ?_⟩
    cases hfault
  | fired d hroll hfind =>
    exact accounts_fire hcat year _ _ d (mem_events_of_find? hfind) _ _ _ hyear

theorem accounts_scan {rules : Rules} (hcat : rules.catalog.Loaded) {year : Year}
    {c : Category} (hc : c ∈ rules.catalog.categories) (world : World) (dice : σ)
    (hyear : world.year = year) : Accounts rules year [] world (rules.scan c world dice) := by
  have hview := scanned rules c world dice
  generalize rules.scan c world dice = p at hview ⊢
  cases hview with
  | barren hnone => exact .quiet hyear _
  | silent hsome hquiet => exact .quiet hyear _
  | picked d hmem hquiet =>
    exact accounts_fire hcat year _ _ d (mem_events_of_mem_eligible hc hmem) _ _ _ hyear

/-- A trigger that a report leaves is not due in its year, unless the calendar ends. -/
theorem lt_due_of_mem_queuedBy {rules : Rules} {year : Year} {o : Occurrence} {t : Trigger}
    (ht : t ∈ rules.queuedBy year o) : year < t.due ∨ year = Year.last := by
  unfold queuedBy at ht
  split at ht
  · obtain ⟨f, hf, rfl⟩ := List.mem_map.1 ht
    have hdelay : 0 < f.delay := by simpa using (List.mem_filter.1 hf).2
    exact Year.lt_later hdelay
  · cases ht

/-! ## Years -/

/-- A year takes the due triggers out of the queue, keeps the others as they are, and puts behind
them those that its report leaves. -/
theorem queue_passYear {rules : Rules} (hcat : rules.catalog.Loaded) {year : Year} {world : World}
    {dice : σ} (h : (rules.passYear year world dice).fault = none) :
    ∃ added, (rules.passYear year world dice).world.queue =
        world.queue.filter (fun t => year < t.due) ++ added ∧
      added.Perm ((rules.passYear year world dice).fired.flatMap (rules.queuedBy year)) := by
  have hyear := not_lt_of_passYear h
  rw [passYear_eq hyear] at h ⊢
  have htry := Accounts.each_nil (world.due year) (fun t _ => accounts_tryTrigger hcat t)
    (world.entered year) dice rfl
  have hall := htry.andThen fun _ => Accounts.each_nil rules.catalog.categories
    (fun c hc => accounts_scan hcat hc) _ _ htry.year_eq
  obtain ⟨added, hqueue, hadded⟩ := hall.queue_eq h
  rw [World.queue_entered] at hqueue
  exact ⟨added, hqueue, hadded⟩

/-- The triggers that join the queue just before the `n`-th year of a sequence: those of the first
world, and later those that the report of the year before leaves. -/
def arrivals (rules : Rules) (years : Nat → Year) (world : World) (dice : σ) :
    Nat → List Trigger
  | 0 => world.queue
  | n + 1 => (rules.during years world dice n).fired.flatMap (rules.queuedBy (years n))

/-- Whether no year from the `first`-th to the one before the `n`-th reaches a trigger. -/
def waits (years : Nat → Year) (first n : Nat) (t : Trigger) : Bool :=
  decide (∀ i < n, first ≤ i → years i < t.due)

theorem waits_self (years : Nat → Year) (n : Nat) (t : Trigger) : waits years n n t = true := by
  unfold waits
  rw [decide_eq_true_iff]
  intro i hlt hle
  omega

/-- A trigger waits one year more when that year does not reach it either. -/
theorem waits_succ {years : Nat → Year} {first n : Nat} (h : first ≤ n) (t : Trigger) :
    waits years first (n + 1) t = (decide (years n < t.due) && waits years first n t) := by
  unfold waits
  rw [← Bool.decide_and]
  refine decide_eq_decide.2 ⟨fun hall => ?_, fun hall i hlt hle => ?_⟩
  · exact ⟨hall n (Nat.lt_succ_self n) h, fun i hlt => hall i (Nat.lt_succ_of_lt hlt)⟩
  · rcases Nat.lt_succ_iff_lt_or_eq.1 hlt with hlt | rfl
    · exact hall.2 i hlt hle
    · exact hall.1

section Sequence

variable {rules : Rules} {years : Nat → Year} {world : World} {dice : σ} {n : Nat}

/-- Before each year the queue has the triggers that no year since their arrival has reached. -/
theorem queue_perm_waiting (hcat : rules.catalog.Loaded)
    (hok : ∀ k < n, (rules.during years world dice k).fault = none) :
    (rules.before years world dice n).1.queue.Perm
      ((List.range (n + 1)).flatMap fun first =>
        (rules.arrivals years world dice first).filter (waits years first n)) := by
  induction n with
  | zero =>
    have hall : world.queue.filter (waits years 0 0) = world.queue :=
      List.filter_eq_self.2 fun t _ => waits_self years 0 t
    simp [arrivals, hall]
  | succ n ih =>
    -- The year drops the triggers that it reaches from each batch, and adds a batch of its own.
    have hold := ih fun k hk => hok k (Nat.lt_succ_of_lt hk)
    obtain ⟨added, hqueue, hadded⟩ := queue_passYear hcat (hok n (Nat.lt_succ_self n))
    have hnew : (rules.arrivals years world dice (n + 1)).filter (waits years (n + 1) (n + 1)) =
        rules.arrivals years world dice (n + 1) :=
      List.filter_eq_self.2 fun t _ => waits_self years (n + 1) t
    have hkept : ∀ first ∈ List.range (n + 1),
        (rules.arrivals years world dice first).filter (waits years first (n + 1)) =
          ((rules.arrivals years world dice first).filter (waits years first n)).filter
            fun t => years n < t.due := by
      intro first hfirst
      rw [List.filter_filter]
      refine List.filter_congr fun t _ => ?_
      exact waits_succ (Nat.lt_succ_iff.1 (List.mem_range.1 hfirst)) t
    rw [before_succ, List.range_succ, List.flatMap_append, List.flatMap_singleton, hnew,
      List.flatMap_congr hkept, ← List.filter_flatMap]
    refine (List.Perm.of_eq hqueue).trans ?_
    exact (hold.filter _).append hadded

/-- A trigger is due in a year when the year reaches it and none since its arrival has. -/
theorem due_perm_reached (hcat : rules.catalog.Loaded)
    (hok : ∀ k < n, (rules.during years world dice k).fault = none) :
    ((rules.before years world dice n).1.due (years n)).Perm
      ((List.range (n + 1)).flatMap fun first =>
        (rules.arrivals years world dice first).filter fun t =>
          decide (t.due ≤ years n) && waits years first n t) := by
  have hwaiting := (queue_perm_waiting hcat hok).filter fun t => t.due ≤ years n
  unfold World.due
  simpa only [List.filter_flatMap, List.filter_filter] using hwaiting

end Sequence

/-! ## Conservation -/

/-- No trigger is lost, doubled, or tried early or late. A year tries its due triggers in queue
order, each with one roll; the queue behind it has the other triggers, unchanged, and one trigger
for each delayed follow-up of each reported event; none of these is due yet, unless the calendar
ends. Over years one after the other, a trigger is due in the first year that reaches it. -/
theorem triggers_conserved (rules : Rules) (hcat : rules.catalog.Loaded) :
    (∀ (year : Year) (world : World) (dice : σ),
      (rules.passYear year world dice).fault = none →
        (∃ (trials : List Trial) (world' : World) (dice' : σ),
          trials.map (·.trigger) = world.queue.filter (fun t => t.due ≤ year) ∧
          Tried rules trials (world.entered year) dice world' dice' ∧
          rules.passYear year world dice =
            { Passage.each rules.scan rules.catalog.categories world' dice' with
              fired := trials.flatMap (·.chain) ++
                (Passage.each rules.scan rules.catalog.categories world' dice').fired }) ∧
        (∃ added, (rules.passYear year world dice).world.queue =
            world.queue.filter (fun t => year < t.due) ++ added ∧
          added.Perm ((rules.passYear year world dice).fired.flatMap (rules.queuedBy year))) ∧
        ∀ t ∈ (rules.passYear year world dice).world.queue, year < t.due ∨ year = Year.last) ∧
    (∀ (years : Nat → Year) (world : World) (dice : σ) (n : Nat),
      (∀ k < n, (rules.during years world dice k).fault = none) →
        (∀ k < n, ((rules.before years world dice k).1.due (years k)).Perm
          ((List.range (k + 1)).flatMap fun first =>
            (rules.arrivals years world dice first).filter fun t =>
              decide (t.due ≤ years k) && waits years first k t)) ∧
        (rules.before years world dice n).1.queue.Perm
          ((List.range (n + 1)).flatMap fun first =>
            (rules.arrivals years world dice first).filter (waits years first n))) := by
  constructor
  · intro year world dice hok
    refine ⟨?_, queue_passYear hcat hok, ?_⟩
    · have hyear := not_lt_of_passYear hok
      rw [passYear_eq hyear] at hok ⊢
      obtain ⟨hfault, -⟩ := Passage.fault_andThen_eq_none.1 hok
      obtain ⟨trials, htriggers, hfired, htried⟩ := exists_tried rules _ _ dice hfault
      refine ⟨trials, _, _, htriggers, htried, ?_⟩
      rw [Passage.andThen_of_none hfault, hfired]
    · -- What waits afterwards was kept as not yet due, or is new and set for a later year.
      intro t ht
      obtain ⟨added, hqueue, hadded⟩ := queue_passYear hcat hok
      rw [hqueue] at ht
      rcases List.mem_append.1 ht with hkept | hnew
      · exact .inl (by simpa using (List.mem_filter.1 hkept).2)
      · obtain ⟨o, -, ho⟩ := List.mem_flatMap.1 (hadded.mem_iff.1 hnew)
        exact lt_due_of_mem_queuedBy ho
  · intro years world dice n hok
    refine ⟨fun k hk => ?_, queue_perm_waiting hcat hok⟩
    exact due_perm_reached hcat fun i hi => hok i (Nat.lt_trans hi hk)

theorem triggers_conserved_tolling :
    Catalog.bells.Loaded ∧ (tolling.passYear 1000 belfry still).fault = none ∧
    (∃ added, (tolling.passYear 1000 belfry still).world.queue =
        belfry.queue.filter (fun t => 1000 < t.due) ++ added ∧
      added.Perm ((tolling.passYear 1000 belfry still).fired.flatMap (tolling.queuedBy 1000))) ∧
    (∀ k < 2, (tolling.during millennium belfry still k).fault = none) ∧
    (tolling.before millennium belfry still 2).1.queue.Perm
      ((List.range 3).flatMap fun first =>
        (tolling.arrivals millennium belfry still first).filter (waits millennium first 2)) := by
  have hcat := Catalog.bells_loaded
  have hone : (tolling.passYear 1000 belfry still).fault = none := by decide +kernel
  have hall : ∀ k < 2, (tolling.during millennium belfry still k).fault = none := by
    decide +kernel
  obtain ⟨hyear, hyears⟩ := @triggers_conserved Generator _ tolling hcat
  exact ⟨hcat, hone, (hyear 1000 belfry still hone).2.1, hall,
    (hyears millennium belfry still 2 hall).2⟩

end Rules

end Annals
