import Annals.Course
/-!
# What a stretch of the year can do

A year is made of few kinds of moves: a follow-up is dealt with, a trigger is tried, a category is
scanned. Each kind has an inductive view here with one case for each way it can end, and everything
that is proved of a year is proved of these cases and carried through lists and chains.

* `Passage.Composes`: statements that hold of idle stretches and of stretches in a row;
  `Composes.each` carries one through a list.
* `Rules.Followed`, `Rules.Attempted`, `Rules.Scanned`: the ways in which a follow-up, a trigger and
  a category can end.
* `Rules.fire_induction`: what striking keeps holds of a whole chain.
* `Rules.ChainLaw`: a statement that holds of each move of a chain holds of the chain.
* `Rules.passYear_eq`: a year is the trial of its due triggers followed by the scan.
* `Rules.follow_congr`, `Rules.tryTrigger_congr`, `Rules.scan_congr`, `Rules.passYear_congr`: what a
  move needs to go the same way under other rules.
-/

namespace Annals

/-! ## Stretches in a row -/

namespace Passage

variable {σ α : Type}

theorem andThen_of_fault {p : Passage σ} {fault : CourseFault} (h : p.fault = some fault)
    (next : World → σ → Passage σ) : p.andThen next = p := by
  unfold andThen
  rw [h]

theorem andThen_of_none {p : Passage σ} (h : p.fault = none) (next : World → σ → Passage σ) :
    p.andThen next =
      { next p.world p.dice with fired := p.fired ++ (next p.world p.dice).fired } := by
  unfold andThen
  rw [h]

/-- Two stretches in a row are free of faults when both are. -/
theorem fault_andThen_eq_none {p : Passage σ} {next : World → σ → Passage σ} :
    (p.andThen next).fault = none ↔ p.fault = none ∧ (next p.world p.dice).fault = none := by
  cases h : p.fault with
  | none =>
    rw [andThen_of_none h]
    simp
  | some fault =>
    rw [andThen_of_fault h]
    simp [h]

/-- A statement about stretches that holds of idle ones and of two in a row. -/
structure Composes (P : World → σ → Passage σ → Prop) : Prop where
  quiet : ∀ world dice dice', P world dice (.quiet world dice')
  append : ∀ {world dice} {p q : Passage σ}, P world dice p → p.fault = none →
    P p.world p.dice q → P world dice { q with fired := p.fired ++ q.fired }

namespace Composes

variable {P : World → σ → Passage σ → Prop}

theorem andThen (h : Composes P) {world : World} {dice : σ} {p : Passage σ}
    {next : World → σ → Passage σ} (hp : P world dice p)
    (hnext : p.fault = none → P p.world p.dice (next p.world p.dice)) :
    P world dice (p.andThen next) := by
  cases hf : p.fault with
  | none =>
    rw [andThen_of_none hf]
    exact h.append hp hf (hnext hf)
  | some fault =>
    rw [andThen_of_fault hf]
    exact hp

theorem faultless : Composes fun _ (_ : σ) (p : Passage σ) => p.fault = none where
  quiet := fun _ _ _ => rfl
  append := fun _ _ hq => hq

/-- What holds of each event of two reports holds of each event of both. -/
theorem forall_fired (Q : Occurrence → Prop) :
    Composes fun _ (_ : σ) (p : Passage σ) => ∀ o ∈ p.fired, Q o where
  quiet := fun _ _ _ => List.forall_mem_nil Q
  append := by
    intro world dice p q hp _ hq
    exact List.forall_mem_append.2 ⟨hp, hq⟩

/-- Draws before a stretch do not matter. -/
theorem of_draw (h : Composes P) {world : World} {dice dice' : σ} {p : Passage σ}
    (hp : P world dice' p) : P world dice p := by
  have hrow := h.append (h.quiet world dice dice') rfl hp
  simpa [Passage.quiet] using hrow

/-- What holds of the stretch of each item holds of the stretches of all items in a row. -/
theorem each (h : Composes P) {step : α → World → σ → Passage σ} {items : List α}
    (hstep : ∀ item ∈ items, ∀ world dice, P world dice (step item world dice)) :
    ∀ world dice, P world dice (Passage.each step items world dice) := by
  induction items with
  | nil => exact fun world dice => h.quiet world dice dice
  | cons item rest ih =>
    intro world dice
    have hrest := ih fun x hx => hstep x (List.mem_cons_of_mem _ hx)
    exact h.andThen (hstep item List.mem_cons_self world dice) fun _ => hrest _ _

end Composes

end Passage

/-! ## Moves -/

/-- The follow-ups of an event that are dealt with at once. -/
def Definition.atOnce (d : Definition) : List FollowUp := d.followUps.filter fun f => f.delay = 0

namespace Rules

variable {σ : Type} [Dice σ]

/-- The beginning of a chain or of a link of it: the effects of an event, and its report. -/
def struck (category : String) (d : Definition) (origin : Origin) (world : World) (dice : σ) :
    Passage σ :=
  let world := (Effect.applyAll world d.effects).1
  { world, dice, fired := [.ofDefinition d category world.year origin], fault := none }

/-- An event is reported, then its follow-ups are dealt with. -/
theorem strike_eq (rules : Rules)
    (fire? : Option (Definition → Origin → World → σ → Passage σ)) (category : String)
    (d : Definition) (origin : Origin) (world : World) (dice : σ) :
    strike rules fire? category d origin world dice =
      (struck category d origin world dice).andThen
        (Passage.each (follow rules fire? d category) d.followUps) := rfl

/-- A call for an event is one roll and, when it is low enough, a look into the catalog. -/
theorem roll_cases {α : Type} {P : α → Prop} (rules : Rules) (event : String) (chance : Float)
    (dice : σ) {missed unknown : α} {fired : Definition → α}
    (hmissed : (Dice.roll dice).1.reaches chance = true → P missed)
    (hunknown : (Dice.roll dice).1.reaches chance = false → rules.catalog.find? event = none →
      P unknown)
    (hfired : ∀ d, (Dice.roll dice).1.reaches chance = false →
      rules.catalog.find? event = some d → P (fired d)) :
    P (if (Dice.roll dice).1.reaches chance then missed
      else match rules.catalog.find? event with
        | some d => fired d
        | none => unknown) := by
  cases hroll : (Dice.roll dice).1.reaches chance with
  | true => exact hmissed hroll
  | false =>
    cases hfind : rules.catalog.find? event with
    | none => exact hunknown hroll hfind
    | some d => exact hfired d hroll hfind

/-- The ways in which a follow-up can end. -/
inductive Followed (rules : Rules)
    (fire? : Option (Definition → Origin → World → σ → Passage σ)) (parent : Definition)
    (category : String) (f : FollowUp) (world : World) (dice : σ) : Passage σ → Prop where
  /-- It has a delay and is queued without a roll. -/
  | queued (hdelay : 0 < f.delay) :
      Followed rules fire? parent category f world dice
        (.quiet (world.schedule (triggerOf parent category f world.year)) dice)
  /-- The chain may not grow. -/
  | dropped (hdelay : ¬ 0 < f.delay) (hfire : fire? = none) :
      Followed rules fire? parent category f world dice (.quiet world dice)
  /-- Its roll is too high. -/
  | missed (fire : Definition → Origin → World → σ → Passage σ) (hdelay : ¬ 0 < f.delay)
      (hfire : fire? = some fire) (hroll : (Dice.roll dice).1.reaches f.chance = true) :
      Followed rules fire? parent category f world dice (.quiet world (Dice.roll dice).2)
  /-- It is not in the catalog. -/
  | unknown (fire : Definition → Origin → World → σ → Passage σ) (hdelay : ¬ 0 < f.delay)
      (hfire : fire? = some fire) (hroll : (Dice.roll dice).1.reaches f.chance = false)
      (hfind : rules.catalog.find? f.event = none) :
      Followed rules fire? parent category f world dice
        (.failed (.unknownEvent f.event parent.id) world (Dice.roll dice).2)
  /-- It fires at once. -/
  | fired (fire : Definition → Origin → World → σ → Passage σ) (d : Definition)
      (hdelay : ¬ 0 < f.delay) (hfire : fire? = some fire)
      (hroll : (Dice.roll dice).1.reaches f.chance = false)
      (hfind : rules.catalog.find? f.event = some d) :
      Followed rules fire? parent category f world dice
        (fire d (.followUp parent.id) world (Dice.roll dice).2)

theorem followed (rules : Rules)
    (fire? : Option (Definition → Origin → World → σ → Passage σ)) (parent : Definition)
    (category : String) (f : FollowUp) (world : World) (dice : σ) :
    Followed rules fire? parent category f world dice
      (follow rules fire? parent category f world dice) := by
  unfold follow
  split
  case isTrue hdelay => exact .queued hdelay
  case isFalse hdelay =>
    cases hfire : fire? with
    | none => exact .dropped hdelay rfl
    | some fire =>
      exact roll_cases rules f.event f.chance dice (.missed fire hdelay rfl)
        (.unknown fire hdelay rfl) fun d => .fired fire d hdelay rfl

/-- The ways in which a due trigger can end: one roll, and the chain of its event or nothing. -/
inductive Attempted (rules : Rules) (t : Trigger) (world : World) (dice : σ) :
    Passage σ → Prop where
  /-- Its roll is too high. -/
  | missed (hroll : (Dice.roll dice).1.reaches t.chance = true) :
      Attempted rules t world dice (.quiet world (Dice.roll dice).2)
  /-- It is not in the catalog. -/
  | unknown (hroll : (Dice.roll dice).1.reaches t.chance = false)
      (hfind : rules.catalog.find? t.event = none) :
      Attempted rules t world dice
        (.failed (.unknownEvent t.event t.scheduledBy) world (Dice.roll dice).2)
  /-- It fires. -/
  | fired (d : Definition) (hroll : (Dice.roll dice).1.reaches t.chance = false)
      (hfind : rules.catalog.find? t.event = some d) :
      Attempted rules t world dice
        (rules.fireRoot t.category d (.delayed t.scheduledBy t.scheduledIn) world
          (Dice.roll dice).2)

theorem attempted (rules : Rules) (t : Trigger) (world : World) (dice : σ) :
    Attempted rules t world dice (rules.tryTrigger t world dice) := by
  unfold tryTrigger
  exact roll_cases rules t.event t.chance dice .missed .unknown .fired

/-- The scan of a category that could begin a chain is a roll against the chance of categories and,
when it is low enough, a draw of an event. -/
theorem scan_cases {α : Type} {P : α → Prop} (rules : Rules) (c : Category) (world : World)
    (dice : σ) {barren silent : α} (picked : Definition → σ → α)
    (hbarren : eligible c world = [] → P barren)
    (hsilent : eligible c world ≠ [] → (rules.staysQuiet dice).1 = true → P silent)
    (hpicked : ∀ d ∈ eligible c world, (rules.staysQuiet dice).1 = false →
      P (picked d (Dice.long ((eligible c world).length - 1) (rules.staysQuiet dice).2).2)) :
    P (match eligible c world with
      | [] => barren
      | first :: rest =>
        if (rules.staysQuiet dice).1 then silent
        else
          let (place, dice) := Dice.long rest.length (rules.staysQuiet dice).2
          picked ((first :: rest).get place) dice) := by
  cases hlist : eligible c world with
  | nil => exact hbarren hlist
  | cons first rest =>
    rw [hlist] at hsilent hpicked
    cases hquiet : (rules.staysQuiet dice).1 with
    | true => exact hsilent (List.cons_ne_nil first rest) hquiet
    | false => exact hpicked _ (List.get_mem ..) hquiet

/-- The ways in which the scan of a category can end. -/
inductive Scanned (rules : Rules) (c : Category) (world : World) (dice : σ) :
    Passage σ → Prop where
  /-- None of its events may begin a chain. -/
  | barren (hnone : eligible c world = []) : Scanned rules c world dice (.quiet world dice)
  /-- The roll against the chance of categories is too high. -/
  | silent (hsome : eligible c world ≠ []) (hquiet : (rules.staysQuiet dice).1 = true) :
      Scanned rules c world dice (.quiet world (rules.staysQuiet dice).2)
  /-- An eligible event is picked with one draw. -/
  | picked (d : Definition) (hmem : d ∈ eligible c world)
      (hquiet : (rules.staysQuiet dice).1 = false) :
      Scanned rules c world dice
        (rules.fireRoot c.name d .scan world
          (Dice.long ((eligible c world).length - 1) (rules.staysQuiet dice).2).2)

theorem scanned (rules : Rules) (c : Category) (world : World) (dice : σ) :
    Scanned rules c world dice (rules.scan c world dice) := by
  unfold scan
  exact scan_cases rules c world dice (P := Scanned rules c world dice)
    (fun d dice => rules.fireRoot c.name d .scan world dice) .barren .silent .picked

/-! ## Chains -/

/-- An event that is found by its id is in the catalog. -/
theorem mem_events_of_find? {c : Catalog} {id : String} {d : Definition}
    (h : c.find? id = some d) : d ∈ c.events := List.mem_of_find?_eq_some h

/-- What striking keeps, given that it holds of the links behind, holds of whole chains. -/
theorem fire_induction {rules : Rules} {category : String}
    {P : Definition → Origin → World → σ → Passage σ → Prop}
    (hstrike : ∀ fire? : Option (Definition → Origin → World → σ → Passage σ),
      (∀ fire, fire? = some fire → ∀ d ∈ rules.catalog.events, ∀ origin world dice,
        P d origin world dice (fire d origin world dice)) →
      ∀ d ∈ rules.catalog.events, ∀ origin world dice,
        P d origin world dice (strike rules fire? category d origin world dice)) (depth : Nat) :
    ∀ d ∈ rules.catalog.events, ∀ origin world dice,
      P d origin world dice (fire rules category depth d origin world dice) := by
  induction depth with
  | zero => exact hstrike none (by simp)
  | succ depth ih =>
    refine hstrike (some (fire rules category depth)) ?_
    intro fire hfire
    cases hfire
    exact ih

/-- A statement that holds of every single move of the chains of a category. -/
structure ChainLaw (rules : Rules) (category : String) (P : World → σ → Passage σ → Prop) : Prop
    extends Passage.Composes P where
  struck : ∀ {d}, d ∈ rules.catalog.events → ∀ origin world dice,
    P world dice (struck category d origin world dice)
  queued : ∀ {d f}, d ∈ rules.catalog.events → f ∈ d.followUps → 0 < f.delay → ∀ world dice,
    P world dice (.quiet (world.schedule (triggerOf d category f world.year)) dice)
  unknown : ∀ {d f}, d ∈ rules.catalog.events → f ∈ d.followUps →
    rules.catalog.find? f.event = none → ∀ world dice dice',
    P world dice (.failed (.unknownEvent f.event d.id) world dice')

namespace ChainLaw

variable {rules : Rules} {category : String} {P : World → σ → Passage σ → Prop}

theorem fire (h : ChainLaw rules category P) (depth : Nat) :
    ∀ d ∈ rules.catalog.events, ∀ origin world dice,
      P world dice (fire rules category depth d origin world dice) := by
  refine fire_induction (P := fun _ _ world dice p => P world dice p) ?_ depth
  intro fire? hfire d hd origin world dice
  rw [strike_eq]
  refine h.andThen (h.struck hd origin world dice) fun _ => ?_
  refine h.each (fun f hf world dice => ?_) _ _
  have hview := followed rules fire? d category f world dice
  generalize follow rules fire? d category f world dice = p at hview ⊢
  -- Only the last case goes a link further, and the induction covers it.
  cases hview with
  | queued hdelay => exact h.queued hd hf hdelay world dice
  | dropped hdelay hnone => exact h.quiet world dice dice
  | missed fire hdelay hsome hroll => exact h.quiet world dice _
  | unknown fire hdelay hsome hroll hfind => exact h.unknown hd hf hfind world dice _
  | fired fire next hdelay hsome hroll hfind =>
    exact h.of_draw (hfire fire hsome next (mem_events_of_find? hfind) _ _ _)

theorem tryTrigger {t : Trigger} (h : ChainLaw rules t.category P)
    (hunknown : rules.catalog.find? t.event = none → ∀ world dice dice',
      P world dice (.failed (.unknownEvent t.event t.scheduledBy) world dice')) :
    ∀ world dice, P world dice (rules.tryTrigger t world dice) := by
  intro world dice
  have hview := attempted rules t world dice
  generalize rules.tryTrigger t world dice = p at hview ⊢
  cases hview with
  | missed hroll => exact h.quiet world dice _
  | unknown hroll hfind => exact hunknown hfind world dice _
  | fired d hroll hfind =>
    exact h.of_draw (h.fire _ d (mem_events_of_find? hfind) _ _ _)

end ChainLaw

/-- The eligible events of a category are its own, are not reserved for follow-ups, and have all
their conditions fulfilled. -/
theorem mem_eligible {c : Category} {world : World} {d : Definition} :
    d ∈ eligible c world ↔
      d ∈ c.events ∧ d.followUpOnly = false ∧ Condition.allHold world d.conditions = true := by
  unfold eligible Category.candidates
  rw [List.mem_filter, List.mem_filter]
  simp [and_assoc]

theorem mem_events_of_mem_eligible {catalog : Catalog} {c : Category} {world : World}
    {d : Definition} (hc : c ∈ catalog.categories) (hd : d ∈ eligible c world) :
    d ∈ catalog.events := by
  unfold Catalog.events
  exact List.mem_flatMap.2 ⟨c, hc, (mem_eligible.1 hd).1⟩

theorem ChainLaw.scan {rules : Rules} {P : World → σ → Passage σ → Prop} {c : Category}
    (h : ChainLaw rules c.name P) (hc : c ∈ rules.catalog.categories) :
    ∀ world dice, P world dice (rules.scan c world dice) := by
  intro world dice
  have hview := scanned rules c world dice
  generalize rules.scan c world dice = p at hview ⊢
  cases hview with
  | barren hnone => exact h.quiet world dice dice
  | silent hsome hquiet => exact h.quiet world dice _
  | picked d hmem hquiet =>
    exact h.of_draw (h.fire _ d (mem_events_of_mem_eligible hc hmem) _ _ _)

end Rules

/-! ## Years -/

namespace World

/-- The triggers that are due by a year, in queue order. -/
def due (w : World) (year : Year) : List Trigger := w.queue.filter fun t => t.due ≤ year

/-- The world at the beginning of a year, with the due triggers taken out of the queue. -/
def entered (w : World) (year : Year) : World :=
  { w with year, queue := w.queue.filter fun t => !(t.due ≤ year) }

/-- The triggers that are not due wait on, in queue order. -/
theorem queue_entered (w : World) (year : Year) :
    (w.entered year).queue = w.queue.filter fun t => year < t.due := by
  refine List.filter_congr fun t _ => ?_
  simp [← Int32.not_le]

end World

namespace Rules

variable {σ : Type} [Dice σ] {rules : Rules} {year : Year} {world : World}

/-- A year before the world's year is refused, and nothing changes. -/
theorem passYear_of_lt (h : year < world.year) (dice : σ) :
    rules.passYear year world dice = .failed (.yearRegression world.year year) world dice := by
  unfold passYear
  rw [if_pos h]

/-- Any other year is the trial of its due triggers followed by the scan of the categories. -/
theorem passYear_eq (h : ¬ year < world.year) (dice : σ) :
    rules.passYear year world dice =
      (Passage.each rules.tryTrigger (world.due year) (world.entered year) dice).andThen
        (Passage.each rules.scan rules.catalog.categories) := by
  unfold passYear
  rw [if_neg h]
  rfl

/-- A year that is gone through does not lie before the world's year. -/
theorem not_lt_of_passYear {dice : σ} (h : (rules.passYear year world dice).fault = none) :
    ¬ year < world.year := by
  intro hlt
  rw [passYear_of_lt hlt] at h
  cases h

/-- What holds of every trial and of every scan holds of a year from its beginning. -/
theorem passYear_law {P : World → σ → Passage σ → Prop} (h : Passage.Composes P)
    (hyear : ¬ year < world.year)
    (htry : ∀ t ∈ world.due year, ∀ w dice, P w dice (rules.tryTrigger t w dice))
    (hscan : ∀ c ∈ rules.catalog.categories, ∀ w dice, P w dice (rules.scan c w dice))
    (dice : σ) : P (world.entered year) dice (rules.passYear year world dice) := by
  rw [passYear_eq hyear]
  exact h.andThen (h.each htry _ _) fun _ => h.each hscan _ _

/-- What holds of each event of a trial or of a scan holds of each event of the year. -/
theorem forall_fired_passYear {Q : Occurrence → Prop} (hyear : ¬ year < world.year)
    (htry : ∀ t ∈ world.due year, ∀ w (dice : σ), ∀ o ∈ (rules.tryTrigger t w dice).fired, Q o)
    (hscan : ∀ c ∈ rules.catalog.categories, ∀ w (dice : σ),
      ∀ o ∈ (rules.scan c w dice).fired, Q o) (dice : σ) :
    ∀ o ∈ (rules.passYear year world dice).fired, Q o :=
  passYear_law (.forall_fired Q) hyear htry hscan dice

end Rules

/-! ## The same moves under other rules -/

/-- Moves that agree item by item agree in a row. -/
theorem Passage.each_congr {σ α : Type} {step step' : α → World → σ → Passage σ} {items : List α}
    (h : ∀ item ∈ items, step item = step' item) : each step items = each step' items := by
  induction items with
  | nil => rfl
  | cons item rest ih =>
    obtain ⟨hfirst, hrest⟩ := List.forall_mem_cons.1 h
    funext world dice
    show (step item world dice).andThen (each step rest) = _
    rw [hfirst, ih hrest]
    rfl

namespace Rules

variable {σ : Type} [Dice σ] {rules rules' : Rules} {category : String}
  {fire? fire?' : Option (Definition → Origin → World → σ → Passage σ)}

/-- A follow-up with a delay is queued under any rules, and however long the chain is. -/
theorem follow_of_delay {f : FollowUp} (hdelay : 0 < f.delay) (parent : Definition) :
    follow rules fire? parent category f = follow rules' fire?' parent category f := by
  funext world dice
  unfold follow
  rw [if_pos hdelay, if_pos hdelay]

/-- A follow-up goes the same way when its event is the same, and the links agree on that event. -/
theorem follow_congr {f : FollowUp}
    (hfind : rules'.catalog.find? f.event = rules.catalog.find? f.event)
    (hfire : Option.Rel (fun fire fire' => ∀ d, rules.catalog.find? f.event = some d →
      fire d = fire' d) fire? fire?') (parent : Definition) :
    follow rules fire? parent category f = follow rules' fire?' parent category f := by
  funext world dice
  unfold follow withEvent
  rw [hfind]
  cases hfire with
  | none => rfl
  | some hagree =>
    cases hnext : rules.catalog.find? f.event with
    | none => rfl
    | some next => simp only [hagree next hnext]

/-- An event goes the same way when each of its follow-ups does. -/
theorem strike_congr {d : Definition}
    (h : ∀ f ∈ d.followUps, follow rules fire? d category f = follow rules' fire?' d category f) :
    strike rules fire? category d = strike rules' fire?' category d := by
  funext origin world dice
  rw [strike_eq, strike_eq, Passage.each_congr h]

/-- A trigger goes the same way when its event is the same, and the chain of that event does. -/
theorem tryTrigger_congr {t : Trigger}
    (hfind : rules'.catalog.find? t.event = rules.catalog.find? t.event)
    (hfire : ∀ d, rules.catalog.find? t.event = some d →
      fireRoot (σ := σ) rules t.category d = fireRoot rules' t.category d) :
    tryTrigger (σ := σ) rules t = tryTrigger rules' t := by
  funext world dice
  unfold tryTrigger withEvent
  rw [hfind]
  cases hnext : rules.catalog.find? t.event with
  | none => rfl
  | some d => simp only [hfire d hnext]

/-- A category goes the same way when the same events may begin a chain in it, and their chains
do. -/
theorem scan_congr {k k' : Category} (hname : k'.name = k.name)
    (hchance : rules'.settings.categoryChance = rules.settings.categoryChance)
    (heligible : eligible k' = eligible k)
    (hfire : ∀ world, ∀ d ∈ eligible k world,
      fireRoot (σ := σ) rules k.name d = fireRoot rules' k.name d) :
    scan (σ := σ) rules k = scan rules' k' := by
  have hquiet : staysQuiet (σ := σ) rules' = staysQuiet rules := by
    unfold staysQuiet
    rw [hchance]
  funext world dice
  unfold scan
  rw [heligible, hname, hquiet]
  cases hlist : eligible k world with
  | nil => rfl
  | cons first rest =>
    -- Whichever event is picked, it is one of the eligible ones.
    have hpick : ∀ place, fireRoot (σ := σ) rules k.name ((first :: rest).get place) =
        fireRoot rules' k.name ((first :: rest).get place) := by
      intro place
      refine hfire world _ ?_
      rw [hlist]
      exact List.get_mem ..
    simp only [hpick]

/-- A year goes the same way when the trials of its due triggers and the scan of the categories
do. -/
theorem passYear_congr {year : Year} {world : World}
    (htry : ∀ t ∈ world.due year, tryTrigger (σ := σ) rules t = tryTrigger rules' t)
    (hscan : Passage.each (scan (σ := σ) rules) rules.catalog.categories =
      Passage.each (scan rules') rules'.catalog.categories) (dice : σ) :
    rules.passYear year world dice = rules'.passYear year world dice := by
  by_cases hlt : year < world.year
  · rw [passYear_of_lt hlt, passYear_of_lt hlt]
  · rw [passYear_eq hlt, passYear_eq hlt, Passage.each_congr htry, hscan]

end Rules

end Annals
