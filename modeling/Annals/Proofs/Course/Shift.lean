import Annals.Proofs.Course.Resolved
import Annals.Proofs.World.Shift
/-!
# Years in another calendar

A year of the world asks for years in few places: a trigger is due or not, a wait begins, a report
is dated. None of these depends on where the calendar begins, as long as every wait ends within it.
So the same events fire with the same draws, dated in the other calendar.

* `Occurrence.shift`, `Passage.shift`: reports and stretches as another calendar dates them.
* `Occurrence.InCalendar`: the waits that an event begins end within the calendar.
* `Passage.Shifts`: a move that goes the same way in the other calendar; moves in a row do when each
  of them does.
* `Rules.shifts_fire`, `Rules.passYear_shift`: chains and years.
* `Rules.moves_years_passYear`, `Rules.moves_fired_passYear`: the years that a year of the world
  writes down.
-/

namespace Annals

/-! ## Reports -/

namespace Origin

/-- An origin as another calendar dates it. -/
def shift (k : Int) : Origin → Origin
  | .scan => .scan
  | .followUp parent => .followUp parent
  | .delayed parent scheduledIn => .delayed parent (scheduledIn.shift k)

/-- The years that stand in an origin. -/
def years : Origin → List Year
  | .scan | .followUp _ => []
  | .delayed _ scheduledIn => [scheduledIn]

end Origin

namespace Occurrence

/-- An event as another calendar dates it. -/
def shift (k : Int) (o : Occurrence) : Occurrence :=
  { o with year := o.year.shift k, origin := o.origin.shift k }

/-- The years that stand in the report of an event. -/
def years (o : Occurrence) : List Year := o.year :: o.origin.years

/-- The waits that the event begins end within the calendar. -/
def InCalendar (c : Catalog) (o : Occurrence) : Prop :=
  ∀ d ∈ c.find? o.id, ∀ f ∈ d.followUps, 0 < f.delay → o.year.Reaches f.delay

instance (c : Catalog) (o : Occurrence) : Decidable (o.InCalendar c) :=
  inferInstanceAs (Decidable (∀ d ∈ c.find? o.id, ∀ f ∈ d.followUps, 0 < f.delay → _))

end Occurrence

/-- No event of the catalog asks for the year. -/
def Catalog.Timeless (c : Catalog) : Prop := ∀ d ∈ c.events, ∀ p ∈ d.conditions, p.Timeless

instance (c : Catalog) : Decidable c.Timeless :=
  inferInstanceAs (Decidable (∀ d ∈ c.events, ∀ p ∈ d.conditions, p.Timeless))

/-! ## Stretches -/

namespace Passage

variable {σ α : Type} {k : Int} {year : Year} {R : Occurrence → Prop}

/-- A stretch as another calendar dates it. -/
def shift (k : Int) (p : Passage σ) : Passage σ :=
  { p with world := p.world.shift k, fired := p.fired.map (Occurrence.shift k) }

/-- A move of a year that goes the same way in the other calendar, given what may fire in either. -/
def Shifts (k : Int) (year : Year) (R : Occurrence → Prop) (step step' : World → σ → Passage σ) :
    Prop :=
  ∀ ⦃world⦄ dice, world.year = year → (∀ o ∈ (step world dice).fired, R o) →
    (∀ o ∈ (step' (world.shift k) dice).fired, R o) →
    step' (world.shift k) dice = (step world dice).shift k

/-- What has fired before something else happens has fired. -/
theorem mem_fired_andThen {p : Passage σ} {o : Occurrence} (h : o ∈ p.fired)
    (next : World → σ → Passage σ) : o ∈ (p.andThen next).fired := by
  cases hfault : p.fault with
  | some fault =>
    rw [andThen_of_fault hfault]
    exact h
  | none =>
    rw [andThen_of_none hfault]
    exact List.mem_append_left _ h

/-- A stretch goes on the same way in the other calendar. -/
theorem Shifts.andThen {p p' : Passage σ} {next next' : World → σ → Passage σ}
    (hfirst : (∀ o ∈ p.fired, R o) → (∀ o ∈ p'.fired, R o) → p' = p.shift k)
    (hyear : p.world.year = year) (hnext : Shifts k year R next next')
    (h : ∀ o ∈ (p.andThen next).fired, R o) (h' : ∀ o ∈ (p'.andThen next').fired, R o) :
    p'.andThen next' = (p.andThen next).shift k := by
  have hsame := hfirst (fun o ho => h o (mem_fired_andThen ho next))
    (fun o ho => h' o (mem_fired_andThen ho next'))
  subst hsame
  cases hfault : p.fault with
  | some fault =>
    rw [andThen_of_fault hfault, andThen_of_fault (p := p.shift k) hfault]
  | none =>
    rw [andThen_of_none hfault] at h ⊢
    rw [andThen_of_none (p := p.shift k) hfault] at h' ⊢
    have hrest : next' (p.shift k).world (p.shift k).dice = (next p.world p.dice).shift k :=
      hnext p.dice hyear (fun o ho => h o (List.mem_append_right _ ho))
        (fun o ho => h' o (List.mem_append_right _ ho))
    rw [hrest]
    simp [shift]

/-- Moves in a row go the same way in the other calendar when each of them does. -/
theorem shifts_each {step step' : α → World → σ → Passage σ} (g : α → α) {items : List α}
    (hstep : ∀ item ∈ items, Shifts k year R (step item) (step' (g item)))
    (hyear : ∀ item ∈ items, ∀ world dice, (step item world dice).world.year = world.year) :
    Shifts k year R (each step items) (each step' (items.map g)) := by
  induction items with
  | nil => exact fun _ _ _ _ _ => rfl
  | cons item rest ih =>
    obtain ⟨hfirst, hrest⟩ := List.forall_mem_cons.1 hstep
    obtain ⟨hkeep, hkeeps⟩ := List.forall_mem_cons.1 hyear
    intro world dice hnow h h'
    exact Shifts.andThen (hfirst dice hnow) ((hkeep world dice).trans hnow) (ih hrest hkeeps) h h'

end Passage

/-! ## Chains -/

namespace Rules

open Passage (Shifts)

variable {σ : Type} [Dice σ] {rules : Rules} {k : Int} {year : Year}

omit [Dice σ] in
/-- A wait that ends within both calendars leaves the same trigger in the queue. -/
theorem schedule_triggerOf_shift (hmoves : year.Moves k) (parent : Definition) (category : String)
    {f : FollowUp} (hreach : year.Reaches f.delay) (hreach' : (year.shift k).Reaches f.delay)
    {world : World} (hyear : world.year = year) :
    (world.shift k).schedule (triggerOf parent category f (world.shift k).year) =
      (world.schedule (triggerOf parent category f world.year)).shift k := by
  have hdue : world.year ≤ world.year.later f.delay := Year.le_later world.year f.delay
  have hdue' : (world.year.shift k) ≤ (world.year.shift k).later f.delay :=
    Year.le_later (world.year.shift k) f.delay
  have hlater : (world.year.shift k).later f.delay = (world.year.later f.delay).shift k := by
    rw [hyear, Year.shift_later hmoves hreach hreach']
  have htrigger : triggerOf parent category f (world.shift k).year =
      (triggerOf parent category f world.year).shift k := by
    unfold triggerOf Trigger.shift
    rw [World.year_shift, hlater]
  rw [hlater] at hdue'
  rw [htrigger]
  exact World.schedule_shift hdue hdue'

/-- A follow-up of a link whose waits end within both calendars. -/
theorem shifts_follow {R : Occurrence → Prop}
    {fire? : Option (Definition → Origin → World → σ → Passage σ)}
    (hfire : ∀ fire, fire? = some fire → ∀ d ∈ rules.catalog.events, ∀ origin,
      Shifts k year R (fire d origin) (fire d (origin.shift k)))
    (hmoves : year.Moves k) (parent : Definition) (category : String) {f : FollowUp}
    (hwait : 0 < f.delay → year.Reaches f.delay ∧ (year.shift k).Reaches f.delay) :
    Shifts k year R (follow rules fire? parent category f)
      (follow rules fire? parent category f) := by
  intro world dice hyear h h'
  unfold follow at h h' ⊢
  by_cases hdelay : 0 < f.delay
  · obtain ⟨hreach, hreach'⟩ := hwait hdelay
    rw [if_pos hdelay, if_pos hdelay,
      schedule_triggerOf_shift hmoves parent category hreach hreach' hyear]
    rfl
  · rw [if_neg hdelay] at h h' ⊢
    rw [if_neg hdelay]
    cases hsome : fire? with
    | none => rfl
    | some fire =>
      rw [hsome] at h h'
      cases hroll : (Dice.roll dice).1.reaches f.chance with
      | true => simp [hroll, Passage.quiet, Passage.shift]
      | false =>
        unfold withEvent at h h' ⊢
        cases hfind : rules.catalog.find? f.event with
        | none => simp [hroll, Passage.failed, Passage.shift]
        | some d =>
          have hnext := hfire fire hsome d (mem_events_of_find? hfind) (.followUp parent.id)
            (Dice.roll dice).2 hyear
          simp only [hroll, hfind] at h h' ⊢
          exact hnext h h'

/-- No follow-up changes the year when no link does. -/
theorem year_follow {fire? : Option (Definition → Origin → World → σ → Passage σ)}
    (hfire : ∀ fire, fire? = some fire → ∀ d ∈ rules.catalog.events, ∀ origin world dice,
      (fire d origin world dice).world.year = world.year)
    (parent : Definition) (category : String) (f : FollowUp) (world : World) (dice : σ) :
    (follow rules fire? parent category f world dice).world.year = world.year := by
  have hview := followed rules fire? parent category f world dice
  generalize follow rules fire? parent category f world dice = p at hview ⊢
  cases hview with
  | queued hdelay => rfl
  | dropped hdelay hnone => rfl
  | missed fire hdelay hsome hroll => rfl
  | unknown fire hdelay hsome hroll hfind => rfl
  | fired fire next hdelay hsome hroll hfind =>
    exact hfire fire hsome next (mem_events_of_find? hfind) _ _ _

/-- A link of a chain: what it reports tells that its own waits end within both calendars. -/
theorem shifts_strike (hcat : rules.catalog.Loaded) (hmoves : year.Moves k)
    {fire? : Option (Definition → Origin → World → σ → Passage σ)}
    (hfire : ∀ fire, fire? = some fire → ∀ d ∈ rules.catalog.events, ∀ origin,
      Shifts k year (Occurrence.InCalendar rules.catalog) (fire d origin)
        (fire d (origin.shift k)))
    (hkeep : ∀ fire, fire? = some fire → ∀ d ∈ rules.catalog.events, ∀ origin world dice,
      (fire d origin world dice).world.year = world.year)
    (category : String) {d : Definition} (hd : d ∈ rules.catalog.events) (origin : Origin) :
    Shifts k year (Occurrence.InCalendar rules.catalog) (strike rules fire? category d origin)
      (strike rules fire? category d (origin.shift k)) := by
  intro world dice hyear h h'
  rw [strike_eq] at h h' ⊢
  rw [strike_eq]
  have hafter : (struck category d origin world dice).world.year = year :=
    (Effect.year_applyAll world d.effects).trans hyear
  have hstruck : struck category d (origin.shift k) (world.shift k) dice =
      (struck category d origin world dice).shift k := by
    unfold struck
    rw [Effect.applyAll_shift]
    rfl
  rw [hstruck] at h' ⊢
  have hwait : ∀ f ∈ d.followUps, 0 < f.delay →
      year.Reaches f.delay ∧ (year.shift k).Reaches f.delay := by
    intro f hf hdelay
    have hfirst := h _ (Passage.mem_fired_andThen List.mem_cons_self _)
    have hfirst' := h' _ (Passage.mem_fired_andThen List.mem_cons_self _)
    have hfind := hcat.find?_of_mem hd
    rw [← hafter]
    exact ⟨hfirst d hfind f hf hdelay, hfirst' d hfind f hf hdelay⟩
  have hfollows := Passage.shifts_each id
    (fun f hf => shifts_follow hfire hmoves d category (hwait f hf))
    (fun f _ => year_follow hkeep d category f)
  rw [List.map_id] at hfollows
  exact Shifts.andThen (fun _ _ => rfl) hafter hfollows h h'

/-- A chain is the same in the other calendar. -/
theorem shifts_fire (hcat : rules.catalog.Loaded) (hmoves : year.Moves k) (category : String)
    (depth : Nat) : ∀ d ∈ rules.catalog.events, ∀ origin,
      Shifts (σ := σ) k year (Occurrence.InCalendar rules.catalog)
        (fire rules category depth d origin) (fire rules category depth d (origin.shift k)) := by
  induction depth with
  | zero =>
    intro d hd origin
    refine shifts_strike hcat hmoves ?_ ?_ category hd origin
    · exact fun _ hnone => by cases hnone
    · exact fun _ hnone => by cases hnone
  | succ depth ih =>
    intro d hd origin
    refine shifts_strike hcat hmoves ?_ ?_ category hd origin
    · intro fire hfire
      cases hfire
      exact ih
    · intro fire hfire
      cases hfire
      exact (keepsYear rules category).fire depth

/-! ## Moves of a year -/

theorem shifts_tryTrigger (hcat : rules.catalog.Loaded) (hmoves : year.Moves k) (t : Trigger) :
    Shifts (σ := σ) k year (Occurrence.InCalendar rules.catalog) (rules.tryTrigger t)
      (rules.tryTrigger (t.shift k)) := by
  intro world dice hyear h h'
  unfold tryTrigger withEvent at h h' ⊢
  cases hroll : (Dice.roll dice).1.reaches t.chance with
  | true => simp [hroll, Trigger.shift, Passage.quiet, Passage.shift]
  | false =>
    cases hfind : rules.catalog.find? t.event with
    | none => simp [hroll, hfind, Trigger.shift, Passage.failed, Passage.shift]
    | some d =>
      have hchain := shifts_fire (σ := σ) hcat hmoves t.category rules.settings.maxDepth.toNat d
        (mem_events_of_find? hfind) (.delayed t.scheduledBy t.scheduledIn) (Dice.roll dice).2 hyear
      simp only [hroll, hfind, Trigger.shift] at h h' ⊢
      exact hchain h h'

/-- The same event of a category is picked when no condition asks for the year. -/
theorem shifts_scan (hcat : rules.catalog.Loaded)
    (htimeless : rules.catalog.Timeless)
    (hmoves : year.Moves k) {c : Category} (hc : c ∈ rules.catalog.categories) :
    Shifts (σ := σ) k year (Occurrence.InCalendar rules.catalog) (rules.scan c)
      (rules.scan c) := by
  intro world dice hyear h h'
  have heligible : eligible c (world.shift k) = eligible c world := by
    unfold eligible
    refine List.filter_congr fun d hd => ?_
    have hevent : d ∈ rules.catalog.events :=
      List.mem_flatMap.2 ⟨c, hc, (List.mem_filter.1 hd).1⟩
    exact Condition.allHold_shift (htimeless d hevent) k world
  unfold scan at h h' ⊢
  rw [heligible] at h' ⊢
  cases hlist : eligible c world with
  | nil => rfl
  | cons first rest =>
    rw [hlist] at h h'
    cases hquiet : (rules.staysQuiet dice).1 with
    | true => simp [hquiet, Passage.quiet, Passage.shift]
    | false =>
      have hmem : ∀ place, (first :: rest).get place ∈ rules.catalog.events := by
        intro place
        have hpicked : (first :: rest).get place ∈ eligible c world := by
          rw [hlist]
          exact List.get_mem ..
        exact mem_events_of_mem_eligible hc hpicked
      have hchain := shifts_fire (σ := σ) hcat hmoves c.name rules.settings.maxDepth.toNat _
        (hmem (Dice.long rest.length (rules.staysQuiet dice).2).1) .scan
        (Dice.long rest.length (rules.staysQuiet dice).2).2 hyear
      simp only [hquiet] at h h' ⊢
      exact hchain h h'

end Rules

/-! ## Years -/

namespace World

variable {k : Int} {w : World} {year : Year}

/-- The same triggers are due in either calendar. -/
theorem due_le_shift (hyear : year.Moves k) (hqueue : ∀ y ∈ w.years, y.Moves k) {t : Trigger}
    (ht : t ∈ w.queue) : (t.shift k).due ≤ year.shift k ↔ t.due ≤ year := by
  have hdue : t.due ∈ w.years := mem_years_of_mem_queue ht List.mem_cons_self
  exact Year.shift_le_shift (hqueue _ hdue) hyear

theorem due_shift (hyear : year.Moves k) (hqueue : ∀ y ∈ w.years, y.Moves k) :
    (w.shift k).due (year.shift k) = (w.due year).map (Trigger.shift k) := by
  unfold due
  show (w.queue.map (Trigger.shift k)).filter _ = _
  rw [List.filter_map]
  refine congrArg (List.map _) (List.filter_congr fun t ht => ?_)
  exact decide_eq_decide.2 (due_le_shift hyear hqueue ht)

theorem entered_shift (hyear : year.Moves k) (hqueue : ∀ y ∈ w.years, y.Moves k) :
    (w.shift k).entered (year.shift k) = (w.entered year).shift k := by
  have hwaiting : (w.queue.map (Trigger.shift k)).filter (fun t => !(t.due ≤ year.shift k)) =
      (w.queue.filter fun t => !(t.due ≤ year)).map (Trigger.shift k) := by
    rw [List.filter_map]
    refine congrArg (List.map _) (List.filter_congr fun t ht => ?_)
    exact congrArg not (decide_eq_decide.2 (due_le_shift hyear hqueue ht))
  unfold entered
  rw [show (w.shift k).queue = w.queue.map (Trigger.shift k) from rfl, hwaiting]
  rfl

end World

namespace Rules

variable {σ : Type} [Dice σ] {rules : Rules} {k : Int} {year : Year} {world : World}

/-- A year of the world is the same in the other calendar: what fires, what is drawn, and what
waits. -/
theorem passYear_shift (hcat : rules.catalog.Loaded)
    (htimeless : rules.catalog.Timeless)
    (hyear : world.year ≤ year) (hmoves : year.Moves k) (hworld : ∀ y ∈ world.years, y.Moves k)
    (dice : σ)
    (h : ∀ o ∈ (rules.passYear year world dice).fired, o.InCalendar rules.catalog)
    (h' : ∀ o ∈ (rules.passYear (year.shift k) (world.shift k) dice).fired,
      o.InCalendar rules.catalog) :
    rules.passYear (year.shift k) (world.shift k) dice =
      (rules.passYear year world dice).shift k := by
  have hlt : ¬ year < world.year := Int32.not_lt.2 hyear
  have hlt' : ¬ year.shift k < (world.shift k).year := by
    rw [World.year_shift, Int32.not_lt, Year.shift_le_shift (hworld _ List.mem_cons_self) hmoves]
    exact hyear
  rw [passYear_eq hlt] at h ⊢
  rw [passYear_eq hlt'] at h' ⊢
  rw [World.due_shift hmoves hworld, World.entered_shift hmoves hworld] at h' ⊢
  have htry : Passage.Shifts (σ := σ) k year (Occurrence.InCalendar rules.catalog)
      (Passage.each rules.tryTrigger (world.due year))
      (Passage.each rules.tryTrigger ((world.due year).map (Trigger.shift k))) :=
    Passage.shifts_each (Trigger.shift k) (fun t _ => shifts_tryTrigger hcat hmoves t)
      (fun t _ => year_tryTrigger rules t)
  have hscan : Passage.Shifts (σ := σ) k year (Occurrence.InCalendar rules.catalog)
      (Passage.each rules.scan rules.catalog.categories)
      (Passage.each rules.scan (rules.catalog.categories.map id)) :=
    Passage.shifts_each id (fun c hc => shifts_scan hcat htimeless hmoves hc)
      (fun c hc => year_scan hc)
  rw [List.map_id] at hscan
  have hdrained : (Passage.each rules.tryTrigger (world.due year) (world.entered year)
      dice).world.year = year :=
    Passage.Composes.keepsYear.each (fun t _ => year_tryTrigger rules t) (world.entered year) dice
  exact Passage.Shifts.andThen (htry dice rfl) hdrained hscan h h'

/-! ## The years that are written down -/

/-- The reports of a chain date nothing but what the origin of its root dates. -/
theorem years_origin_fire (rules : Rules) (category : String) (depth : Nat) :
    ∀ d ∈ rules.catalog.events, ∀ origin world (dice : σ),
      ∀ o ∈ (fire rules category depth d origin world dice).fired,
        ∀ y ∈ o.origin.years, y ∈ origin.years := by
  refine fire_induction (P := fun _ origin _ _ p =>
    ∀ o ∈ p.fired, ∀ y ∈ o.origin.years, y ∈ origin.years) ?_ depth
  intro fire? hfire d hd origin world dice
  have hlaw := Passage.Composes.forall_fired (σ := σ) fun o =>
    ∀ y ∈ o.origin.years, y ∈ origin.years
  have hroot : ∀ o ∈ (struck category d origin world dice).fired,
      ∀ y ∈ o.origin.years, y ∈ origin.years := List.forall_mem_singleton.2 fun _ hy => hy
  rw [strike_eq]
  refine @Passage.Composes.andThen σ _ hlaw world dice _ _ hroot fun _ => ?_
  refine hlaw.each (fun f _ world dice => ?_) _ _
  have hview := followed rules fire? d category f world dice
  generalize follow rules fire? d category f world dice = p at hview ⊢
  cases hview with
  | queued hdelay => exact List.forall_mem_nil _
  | dropped hdelay hnone => exact List.forall_mem_nil _
  | missed fire hdelay hsome hroll => exact List.forall_mem_nil _
  | unknown fire hdelay hsome hroll hfind => exact List.forall_mem_nil _
  | fired fire next hdelay hsome hroll hfind =>
    -- A follow-up at once has no date of its own, and neither has anything behind it.
    intro o ho y hy
    exact absurd (hfire fire hsome next (mem_events_of_find? hfind) _ _ _ o ho y hy)
      List.not_mem_nil

theorem years_origin_tryTrigger (rules : Rules) (t : Trigger) (world : World) (dice : σ) :
    ∀ o ∈ (rules.tryTrigger t world dice).fired, ∀ y ∈ o.origin.years, y = t.scheduledIn := by
  have hview := attempted rules t world dice
  generalize rules.tryTrigger t world dice = p at hview ⊢
  cases hview with
  | missed hroll => exact List.forall_mem_nil _
  | unknown hroll hfind => exact List.forall_mem_nil _
  | fired d hroll hfind =>
    intro o ho y hy
    have hdate := years_origin_fire rules t.category _ d (mem_events_of_find? hfind) _ _ _ o ho y hy
    exact List.mem_singleton.1 hdate

theorem years_origin_scan {c : Category} (hc : c ∈ rules.catalog.categories) (world : World)
    (dice : σ) : ∀ o ∈ (rules.scan c world dice).fired, ∀ y, y ∉ o.origin.years := by
  have hview := scanned rules c world dice
  generalize rules.scan c world dice = p at hview ⊢
  cases hview with
  | barren hnone => exact List.forall_mem_nil _
  | silent hsome hquiet => exact List.forall_mem_nil _
  | picked d hmem hquiet =>
    intro o ho y hy
    exact absurd (years_origin_fire rules c.name _ d (mem_events_of_mem_eligible hc hmem) _ _ _
      o ho y hy) List.not_mem_nil

/-- What fires in a year is dated in that year, and its origin in years of the queue. -/
theorem moves_fired_passYear (hyear : world.year ≤ year) (hmoves : year.Moves k)
    (hworld : ∀ y ∈ world.years, y.Moves k) (dice : σ) :
    ∀ o ∈ (rules.passYear year world dice).fired, ∀ y ∈ o.years, y.Moves k := by
  have horigin : ∀ o ∈ (rules.passYear year world dice).fired, ∀ y ∈ o.origin.years, y.Moves k := by
    refine forall_fired_passYear (Int32.not_lt.2 hyear) ?_ ?_ dice
    · intro t ht w dice o ho y hy
      have hdated : t.scheduledIn ∈ t.years := List.mem_cons_of_mem _ List.mem_cons_self
      rw [years_origin_tryTrigger rules t w dice o ho y hy]
      exact hworld _ (World.mem_years_of_mem_queue (List.mem_filter.1 ht).1 hdated)
    · intro c hc w dice o ho y hy
      exact absurd hy (years_origin_scan hc w dice o ho y)
  intro o ho
  refine List.forall_mem_cons.2 ⟨?_, horigin o ho⟩
  rw [forall_year_passYear rules year world dice o ho]
  exact hmoves

omit [Dice σ] in
/-- The triggers that an event leaves are dated in years that both calendars have. -/
theorem moves_years_queuedBy (hmoves : year.Moves k) {o : Occurrence} (hyear : o.year = year)
    (hwait : o.InCalendar rules.catalog) (hwait' : (o.shift k).InCalendar rules.catalog)
    {t : Trigger} (ht : t ∈ rules.queuedBy year o) : ∀ y ∈ t.years, y.Moves k := by
  subst hyear
  unfold queuedBy at ht
  split at ht
  case h_1 d hfind =>
    obtain ⟨f, hf, rfl⟩ := List.mem_map.1 ht
    obtain ⟨hmem, hdelay⟩ := List.mem_filter.1 hf
    have hreach := hwait d hfind f hmem (by simpa using hdelay)
    have hreach' : (o.year.shift k).Reaches f.delay :=
      hwait' d hfind f hmem (by simpa using hdelay)
    exact List.forall_mem_cons.2 ⟨hmoves.later hreach hreach', List.forall_mem_singleton.2 hmoves⟩
  case h_2 => cases ht

/-- What a year leaves in the world is dated in years that both calendars have. -/
theorem moves_years_passYear (hcat : rules.catalog.Loaded) (hmoves : year.Moves k)
    (hworld : ∀ y ∈ world.years, y.Moves k) {dice : σ}
    (hfault : (rules.passYear year world dice).fault = none)
    (h : ∀ o ∈ (rules.passYear year world dice).fired, o.InCalendar rules.catalog)
    (h' : ∀ o ∈ (rules.passYear year world dice).fired,
      (o.shift k).InCalendar rules.catalog) :
    ∀ y ∈ (rules.passYear year world dice).world.years, y.Moves k := by
  refine List.forall_mem_cons.2 ⟨?_, List.forall_mem_flatMap.2 fun t ht => ?_⟩
  · rw [year_passYear rules (not_lt_of_passYear hfault)]
    exact hmoves
  · rcases mem_queue_passYear hcat hfault ht with hold | ⟨o, ho, hnew⟩
    · exact fun y hy => hworld y (World.mem_years_of_mem_queue hold hy)
    · have hnow := forall_year_passYear rules year world dice o ho
      exact moves_years_queuedBy hmoves hnow (h o ho) (h' o ho) hnew

end Rules

end Annals
