import Annals.Proofs.Course.Scan
import Annals.Proofs.Dice.Certain
/-!
# Years without chance

Where every chance is none or certain, and no category has more than one event to pick, the dice
are thrown for nothing. Two sources of chance may differ in type, state and number of draws: the
years go the same way.

* `Passage.SameTale`: two stretches that differ in their dice only.
* `Passage.Fated`: a move that tells the same tale whatever the dice.
* `Rules.Certain`, `World.Certain`: rules and a queue that leave nothing to chance.
* `Rules.fated_fire`, `Rules.fated_tryTrigger`, `Rules.fated_scan`: the moves of a year.
* `Rules.sameTale_during`: years one after the other.
* `Rules.striking`, `World.tower`: rules and a world of this kind.
-/

namespace Annals

/-- No waiting trigger is left to chance. -/
def World.Certain (w : World) : Prop := ∀ t ∈ w.queue, Dice.Certain t.chance

/-! ## Tales -/

namespace Passage

variable {σ τ α : Type}

/-- Two stretches that leave the same world, report the same events, and end in the same fault or
in none. -/
structure SameTale (p : Passage σ) (q : Passage τ) : Prop where
  world : p.world = q.world
  fired : p.fired = q.fired
  fault : p.fault = q.fault

/-- Two moves that tell the same tale from every world, whatever the dice. -/
def Fated (move : World → σ → Passage σ) (move' : World → τ → Passage τ) : Prop :=
  ∀ world dice dice', (move world dice).SameTale (move' world dice')

namespace SameTale

theorem quiet (world : World) (dice : σ) (dice' : τ) :
    (Passage.quiet world dice).SameTale (Passage.quiet world dice') := ⟨rfl, rfl, rfl⟩

theorem failed (fault : CourseFault) (world : World) (dice : σ) (dice' : τ) :
    (Passage.failed fault world dice).SameTale (Passage.failed fault world dice') :=
  ⟨rfl, rfl, rfl⟩

theorem andThen {p : Passage σ} {q : Passage τ} (h : p.SameTale q)
    {next : World → σ → Passage σ} {next' : World → τ → Passage τ} (hnext : Fated next next') :
    (p.andThen next).SameTale (q.andThen next') := by
  have hfault := h.fault
  cases hp : p.fault with
  | some fault =>
    rw [hp] at hfault
    rw [andThen_of_fault hp, andThen_of_fault hfault.symm]
    exact h
  | none =>
    rw [hp] at hfault
    rw [andThen_of_none hp, andThen_of_none hfault.symm, h.world]
    obtain ⟨hworld, hfired, hlast⟩ := hnext q.world p.dice q.dice
    exact ⟨hworld, by simp only [h.fired, hfired], hlast⟩

end SameTale

theorem Fated.each {step : α → World → σ → Passage σ} {step' : α → World → τ → Passage τ}
    {items : List α} (h : ∀ item ∈ items, Fated (step item) (step' item)) :
    Fated (Passage.each step items) (Passage.each step' items) := by
  induction items with
  | nil => exact .quiet
  | cons item rest ih =>
    obtain ⟨hfirst, hrest⟩ := List.forall_mem_cons.1 h
    intro world dice dice'
    exact (hfirst world dice dice').andThen (ih hrest)

end Passage

namespace Rules

open Passage (SameTale Fated)

/-- Rules that leave nothing to chance: no follow-up and no scan is uncertain, and there is nothing
to choose in a category. -/
structure Certain (rules : Rules) : Prop where
  followUps : ∀ d ∈ rules.catalog.events, ∀ f ∈ d.followUps, Dice.Certain f.chance
  scans : Dice.Certain rules.settings.categoryChance
  picks : ∀ c ∈ rules.catalog.categories, c.candidates.length ≤ 1

variable {σ τ : Type} [Dice σ] [Dice τ] {rules : Rules}

/-! ## Chains -/

/-- A follow-up that is certain goes one way when the links behind it do. -/
theorem fated_follow {fire? : Option (Definition → Origin → World → σ → Passage σ)}
    {fire?' : Option (Definition → Origin → World → τ → Passage τ)}
    (hfire : Option.Rel (fun fire fire' => ∀ d ∈ rules.catalog.events, ∀ origin,
      Fated (fire d origin) (fire' d origin)) fire? fire?')
    (parent : Definition) (category : String) {f : FollowUp} (hf : Dice.Certain f.chance) :
    Fated (follow rules fire? parent category f) (follow rules fire?' parent category f) := by
  intro world dice dice'
  unfold follow
  split
  case isTrue hdelay => exact .quiet _ _ _
  case isFalse hdelay =>
    cases hfire with
    | none => exact .quiet _ _ _
    | some hagree =>
      dsimp only
      rw [hf.reaches_eq (Dice.roll dice).1 (Dice.roll dice').1]
      split
      case isTrue hmissed => exact .quiet _ _ _
      case isFalse hreached =>
        unfold withEvent
        cases hfind : rules.catalog.find? f.event with
        | none => exact .failed _ _ _ _
        | some d => exact hagree d (mem_events_of_find? hfind) _ _ _ _

variable (hrules : rules.Certain)

include hrules

theorem fated_strike {fire? : Option (Definition → Origin → World → σ → Passage σ)}
    {fire?' : Option (Definition → Origin → World → τ → Passage τ)}
    (hfire : Option.Rel (fun fire fire' => ∀ d ∈ rules.catalog.events, ∀ origin,
      Fated (fire d origin) (fire' d origin)) fire? fire?')
    (category : String) {d : Definition} (hd : d ∈ rules.catalog.events) (origin : Origin) :
    Fated (strike rules fire? category d origin) (strike rules fire?' category d origin) := by
  intro world dice dice'
  have hstruck : (struck category d origin world dice).SameTale
      (struck category d origin world dice') := ⟨rfl, rfl, rfl⟩
  rw [strike_eq, strike_eq]
  exact hstruck.andThen (.each fun f hf =>
    fated_follow hfire d category (hrules.followUps d hd f hf))

/-- A whole chain goes one way. -/
theorem fated_fire (category : String) (depth : Nat) :
    ∀ d ∈ rules.catalog.events, ∀ origin, Fated (σ := σ) (τ := τ)
      (fire rules category depth d origin) (fire rules category depth d origin) := by
  induction depth with
  | zero => exact fun d hd origin => fated_strike hrules .none category hd origin
  | succ depth ih => exact fun d hd origin => fated_strike hrules (.some ih) category hd origin

/-! ## Moves of a year -/

theorem fated_tryTrigger {t : Trigger} (ht : Dice.Certain t.chance) :
    Fated (rules.tryTrigger (σ := σ) t) (rules.tryTrigger (σ := τ) t) := by
  intro world dice dice'
  unfold tryTrigger
  dsimp only
  rw [ht.reaches_eq (Dice.roll dice).1 (Dice.roll dice').1]
  split
  case isTrue hmissed => exact .quiet _ _ _
  case isFalse hreached =>
    unfold withEvent
    cases hfind : rules.catalog.find? t.event with
    | none => exact .failed _ _ _ _
    | some d => exact fated_fire hrules _ _ d (mem_events_of_find? hfind) _ _ _ _

/-- Categories stay quiet always or never. -/
theorem staysQuiet_eq (dice : σ) (dice' : τ) :
    (rules.staysQuiet dice).1 = (rules.staysQuiet dice').1 := by
  rcases hrules.scans with hnone | hall
  · have hbelow : rules.settings.categoryChance < 1.0 := Dice.lt_one_of_le_zero hnone
    unfold staysQuiet
    rw [if_pos hbelow, if_pos hbelow]
    exact (Dice.reaches_of_le_zero hnone _).trans (Dice.reaches_of_le_zero hnone _).symm
  · rw [staysQuiet_of_le hall, staysQuiet_of_le hall]

theorem fated_scan {c : Category} (hc : c ∈ rules.catalog.categories) :
    Fated (rules.scan (σ := σ) c) (rules.scan (σ := τ) c) := by
  intro world dice dice'
  have hquiet := staysQuiet_eq hrules dice dice'
  have hfew : (eligible c world).length ≤ 1 :=
    Nat.le_trans (List.length_filter_le _ _) (hrules.picks c hc)
  unfold scan
  cases hlist : eligible c world with
  | nil => exact .quiet _ _ _
  | cons first rest =>
    -- There is one event to pick, whatever place is drawn for it.
    have hrest : rest = [] := by
      rw [hlist] at hfew
      exact List.eq_nil_of_length_eq_zero (by simpa using hfew)
    subst hrest
    have hpick : ∀ place : Fin ([] : List Definition).length.succ, [first].get place = first :=
      fun place => by simp
    have hd : first ∈ rules.catalog.events :=
      mem_events_of_mem_eligible hc (hlist ▸ List.mem_singleton_self first)
    dsimp only
    rw [hquiet]
    split
    case isTrue hsilent => exact .quiet _ _ _
    case isFalse hloud =>
      simp only [hpick]
      exact fated_fire hrules _ _ first hd _ _ _ _

/-! ## Years -/

theorem sameTale_passYear {world : World} (hworld : world.Certain) (year : Year) (dice : σ)
    (dice' : τ) :
    (rules.passYear year world dice).SameTale (rules.passYear year world dice') := by
  by_cases hlt : year < world.year
  · rw [passYear_of_lt hlt, passYear_of_lt hlt]
    exact .failed _ _ _ _
  · rw [passYear_eq hlt, passYear_eq hlt]
    have htry : ∀ t ∈ world.due year, Fated (rules.tryTrigger (σ := σ) t)
        (rules.tryTrigger (σ := τ) t) := fun t ht =>
      fated_tryTrigger hrules (hworld t (List.mem_filter.1 ht).1)
    exact (Fated.each htry _ _ _).andThen (Fated.each fun c hc => fated_scan hrules hc)

omit [Dice σ] hrules in
theorem composes_certain : Passage.Composes fun world (_ : σ) p =>
    world.Certain → p.world.Certain where
  quiet := fun _ _ _ h => h
  append := fun hp _ hq h => hq (hp h)

omit [Dice σ] in
/-- What a chain queues is as certain as its follow-ups. -/
theorem certain_law (category : String) :
    ChainLaw rules category fun world (_ : σ) p => world.Certain → p.world.Certain where
  toComposes := composes_certain
  struck := by
    intro d _ origin world dice h t ht
    exact h t ((Effect.queue_applyAll world d.effects) ▸ ht)
  queued := by
    intro d f hd hf _ world dice h t ht
    rcases List.mem_append.1 ht with hold | hnew
    · exact h t hold
    · rw [List.mem_singleton.1 hnew]
      have hchance := hrules.followUps d hd f hf
      split
      · exact hchance
      · exact hchance
  unknown := fun _ _ _ _ _ _ h => h

/-- A year leaves nothing uncertain in the queue. -/
theorem certain_passYear {world : World} (hworld : world.Certain) (year : Year) (dice : σ) :
    (rules.passYear year world dice).world.Certain := by
  have hlaw := certain_law (σ := σ) hrules
  by_cases hlt : year < world.year
  · rw [passYear_of_lt hlt]
    exact hworld
  · refine passYear_law composes_certain hlt ?_ ?_ dice ?_
    · exact fun t _ => (hlaw t.category).tryTrigger fun _ _ _ _ h => h
    · exact fun c hc => (hlaw c.name).scan hc
    · exact fun t ht => hworld t (List.mem_filter.1 ht).1

/-- Before each year the two courses are in the same world, and it is a certain one. -/
theorem certain_before {world : World} (hworld : world.Certain) (years : Nat → Year) (dice : σ)
    (dice' : τ) (n : Nat) :
    (rules.before years world dice n).1 = (rules.before years world dice' n).1 ∧
      (rules.before years world dice n).1.Certain := by
  induction n with
  | zero => exact ⟨rfl, hworld⟩
  | succ n ih =>
    obtain ⟨hsame, hcertain⟩ := ih
    have hyear := sameTale_passYear (τ := τ) hrules hcertain (years n)
      (rules.before years world dice n).2 (rules.before years world dice' n).2
    refine ⟨?_, certain_passYear hrules hcertain _ _⟩
    rw [hsame] at hyear
    simp only [before_succ, during]
    rw [hsame]
    exact hyear.world

/-- Under rules that leave nothing to chance, from a world whose queue leaves nothing to chance,
any two sources of chance bring the same worlds, events and faults, year after year. -/
theorem sameTale_during {world : World} (hworld : world.Certain) (years : Nat → Year) (dice : σ)
    (dice' : τ) (n : Nat) :
    (rules.before years world dice n).1 = (rules.before years world dice' n).1 ∧
      (rules.during years world dice n).SameTale (rules.during years world dice' n) := by
  obtain ⟨hsame, hcertain⟩ := certain_before hrules hworld years dice dice' n
  refine ⟨hsame, ?_⟩
  unfold during
  rw [hsame] at hcertain ⊢
  exact sameTale_passYear hrules hcertain (years n) _ _

omit hrules

/-! ## A certain course -/

/-- Rules of a clock: the bell strikes and echoes whenever it can, the echo never comes back, and
in storms there is one event only. -/
def striking : Rules where
  catalog :=
    { categories := [
        { name := "omens"
          events := [Catalog.bell,
            { Catalog.echo with followUps := [{ event := "echo", delay := 0, chance := 0.0 }] }] },
        { name := "storms", events := [Catalog.gale] }] }
  settings := { maxDepth := 2, categoryChance := 1.0 }

theorem striking_certain : striking.Certain where
  followUps := by decide
  scans := by decide
  picks := by decide

end Rules

/-- A world with one trigger that never fires, one that does, and one that cannot. -/
def World.tower : World :=
  { World.blank 999 with queue := [
      { event := "gale", due := 998, chance := 0.0, category := "omens", scheduledBy := "echo"
        scheduledIn := 997 },
      { event := "bell", due := 1001, chance := 1.0, category := "omens", scheduledBy := "bell"
        scheduledIn := 990 },
      { event := "quake", due := 1003, chance := 1.0, category := "omens", scheduledBy := "bell"
        scheduledIn := 990 }] }

theorem Rules.sameTale_during_striking :
    striking.Certain ∧ (∀ t ∈ World.tower.queue, Dice.Certain t.chance) ∧
      (striking.before millennium .tower still 3).1 =
        (striking.before millennium .tower (Generator.seeded 7) 3).1 ∧
      (striking.during millennium .tower still 3).SameTale
        (striking.during millennium .tower (Generator.seeded 7) 3) :=
  have hworld : ∀ t ∈ World.tower.queue, Dice.Certain t.chance := by decide
  ⟨striking_certain, hworld,
    sameTale_during striking_certain hworld millennium still (Generator.seeded 7) 3⟩

end Annals
