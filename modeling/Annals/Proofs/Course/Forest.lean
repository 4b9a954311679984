import Annals.Proofs.Course.Queue
import Annals.Proofs.Course.Replay
import Mathlib.Data.List.Forall2
/-!
# The report of a year as a forest

An event that fires is reported before the events that it sets off, and these are reported one after
the other, each with all that is behind it. So a chain is reported as a tree is listed depth first,
and a year is reported as a list of such trees: those of its triggers, then those of its categories.

* `Chain`: an event with the chains behind it; `Chain.report`, `Chain.depth`.
* `Chain.Linked`: every link is a follow-up at once of the event before it.
* `Rules.grows_fire`: what fires from an event is a linked chain that is not too deep.
* `Rules.report_is_forest`: a year is reported chain by chain.
-/

namespace Annals

/-! ## Chains -/

/-- An event that fired, and the chains of those of its follow-ups that fired. -/
inductive Chain where
  | link (event : Definition) (origin : Origin) (behind : List Chain)

namespace Chain

/-- The event at the root. -/
def event : Chain → Definition
  | link event _ _ => event

/-- Why the root fired. -/
def origin : Chain → Origin
  | link _ origin _ => origin

mutual

/-- The occurrences of a chain, depth first and each event before those behind it. All of them have
the category and the year of the chain. -/
def report (category : String) (year : Year) : Chain → List Occurrence
  | link event origin behind =>
    .ofDefinition event category year origin :: reports category year behind

/-- The occurrences of chains that stand side by side. -/
def reports (category : String) (year : Year) : List Chain → List Occurrence
  | [] => []
  | c :: rest => c.report category year ++ reports category year rest

end

mutual

/-- The number of steps from the root to the deepest event. -/
def depth : Chain → Nat
  | link _ _ behind => reach behind

/-- The number of steps from an event to the deepest one in the chains behind it. -/
def reach : List Chain → Nat
  | [] => 0
  | c :: rest => max (c.depth + 1) (reach rest)

end

/-- A chain behind an event begins with one of its follow-ups at once. -/
structure Follows (rules : Rules) (parent : Definition) (f : FollowUp) (c : Chain) : Prop where
  atOnce : f.delay = 0
  found : rules.catalog.find? f.event = some c.event
  origin_eq : c.origin = .followUp parent.id

/-- The chains behind each event follow it, in the order of its follow-ups. -/
inductive Linked (rules : Rules) : Chain → Prop where
  | link {event : Definition} {origin : Origin} {followUps : List FollowUp} {behind : List Chain}
      (hsub : followUps.Sublist event.followUps)
      (hfollows : List.Forall₂ (Follows rules event) followUps behind)
      (hbehind : ∀ c ∈ behind, Linked rules c) : Linked rules (.link event origin behind)

mutual

/-- Every event of a chain is reported under its category and in its year. -/
theorem of_mem_report {category : String} {year : Year} {o : Occurrence} :
    ∀ {c : Chain}, o ∈ c.report category year → o.category = category ∧ o.year = year
  | link event origin behind, h => by
    rcases List.mem_cons.1 h with rfl | h
    · exact ⟨rfl, rfl⟩
    · exact of_mem_reports h

theorem of_mem_reports {category : String} {year : Year} {o : Occurrence} :
    ∀ {cs : List Chain}, o ∈ reports category year cs → o.category = category ∧ o.year = year
  | [], h => by cases h
  | c :: rest, h => by
    rcases List.mem_append.1 h with h | h
    · exact of_mem_report h
    · exact of_mem_reports h

end

end Chain

/-! ## Firing -/

namespace Rules

variable {σ : Type}

/-- A stretch that fires a chain from an event: its report lists a linked chain, no deeper than
allowed, and the year stays. -/
structure Grows (rules : Rules) (category : String) (depth : Nat) (d : Definition)
    (origin : Origin) (world : World) (p : Passage σ) : Prop where
  year_eq : p.world.year = world.year
  exists_chain : ∃ c : Chain, c.event = d ∧ c.origin = origin ∧ c.Linked rules ∧
    c.depth ≤ depth ∧ p.fired = c.report category world.year

variable [Dice σ] {rules : Rules} {category : String}

/-- A follow-up fires nothing, or one chain that follows its event. The year stays. -/
theorem grown_follow {fire? : Option (Definition → Origin → World → σ → Passage σ)} {depth : Nat}
    (hfire : ∀ fire, fire? = some fire → ∃ below < depth, ∀ d ∈ rules.catalog.events,
      ∀ origin world dice, Grows rules category below d origin world (fire d origin world dice))
    (parent : Definition) (f : FollowUp) (world : World) (dice : σ) :
    (follow rules fire? parent category f world dice).world.year = world.year ∧
      ((follow rules fire? parent category f world dice).fired = [] ∨
        ∃ c : Chain, Chain.Follows rules parent f c ∧ c.Linked rules ∧ c.depth < depth ∧
          (follow rules fire? parent category f world dice).fired =
            c.report category world.year) := by
  have hview := followed rules fire? parent category f world dice
  generalize follow rules fire? parent category f world dice = p at hview ⊢
  cases hview with
  | queued hdelay => exact ⟨rfl, .inl rfl⟩
  | dropped hdelay hnone => exact ⟨rfl, .inl rfl⟩
  | missed fire hdelay hsome hroll => exact ⟨rfl, .inl rfl⟩
  | unknown fire hdelay hsome hroll hfind => exact ⟨rfl, .inl rfl⟩
  | fired fire d hdelay hsome hroll hfind =>
    obtain ⟨below, hbelow, hgrows⟩ := hfire fire hsome
    obtain ⟨hyear, c, hevent, horigin, hlinked, hdepth, hreport⟩ :=
      hgrows d (mem_events_of_find? hfind) (.followUp parent.id) world (Dice.roll dice).2
    have hatOnce : f.delay = 0 := by
      have hzero : ¬ 0 < f.delay.toNat := hdelay
      exact UInt32.toNat_inj.1 (Nat.eq_zero_of_not_pos hzero)
    have hfollows : Chain.Follows rules parent f c :=
      ⟨hatOnce, hfind.trans (congrArg some hevent.symm), horigin⟩
    exact ⟨hyear, .inr ⟨c, hfollows, hlinked, Nat.lt_of_le_of_lt hdepth hbelow, hreport⟩⟩

/-- Follow-ups in a row fire chains side by side, one for each follow-up that fires. -/
theorem grown_follows {fire? : Option (Definition → Origin → World → σ → Passage σ)} {depth : Nat}
    (hfire : ∀ fire, fire? = some fire → ∃ below < depth, ∀ d ∈ rules.catalog.events,
      ∀ origin world dice, Grows rules category below d origin world (fire d origin world dice))
    (parent : Definition) (fs : List FollowUp) (world : World) (dice : σ) :
    (Passage.each (follow rules fire? parent category) fs world dice).world.year = world.year ∧
      ∃ (followUps : List FollowUp) (behind : List Chain), followUps.Sublist fs ∧
        List.Forall₂ (Chain.Follows rules parent) followUps behind ∧
        (∀ c ∈ behind, c.Linked rules) ∧ Chain.reach behind ≤ depth ∧
        (Passage.each (follow rules fire? parent category) fs world dice).fired =
          Chain.reports category world.year behind := by
  induction fs generalizing world dice with
  | nil => exact ⟨rfl, [], [], .slnil, .nil, List.forall_mem_nil _, Nat.zero_le _, rfl⟩
  | cons f fs ih =>
    unfold Passage.each
    obtain ⟨hyear, hchain⟩ := grown_follow hfire parent f world dice
    generalize follow rules fire? parent category f world dice = p at hyear hchain ⊢
    cases hfault : p.fault with
    | some fault =>
      -- After a fault no follow-up is dealt with; what has fired until then stands.
      rw [Passage.andThen_of_fault hfault]
      refine ⟨hyear, ?_⟩
      rcases hchain with hnone | ⟨c, hfollows, hlinked, hdepth, hreport⟩
      · exact ⟨[], [], List.nil_sublist _, .nil, List.forall_mem_nil _, Nat.zero_le _, hnone⟩
      · refine ⟨[f], [c], (List.nil_sublist fs).cons_cons f, .cons hfollows .nil, ?_, ?_, ?_⟩
        · exact List.forall_mem_singleton.2 hlinked
        · exact Nat.max_le.2 ⟨hdepth, Nat.zero_le _⟩
        · simpa [Chain.reports] using hreport
    | none =>
      rw [Passage.andThen_of_none hfault]
      obtain ⟨hyears, followUps, behind, hsub, hall, hlinks, hreach, hreports⟩ := ih p.world p.dice
      rw [hyear] at hyears hreports
      refine ⟨hyears, ?_⟩
      rcases hchain with hnone | ⟨c, hfollows, hlinked, hdepth, hreport⟩
      · refine ⟨followUps, behind, hsub.cons f, hall, hlinks, hreach, ?_⟩
        simpa [hnone] using hreports
      · refine ⟨f :: followUps, c :: behind, hsub.cons_cons f, .cons hfollows hall, ?_, ?_, ?_⟩
        · exact List.forall_mem_cons.2 ⟨hlinked, hlinks⟩
        · exact Nat.max_le.2 ⟨hdepth, hreach⟩
        · show p.fired ++ _ = c.report category world.year ++ _
          rw [hreport, hreports]

/-- An event is the root of the chains that its follow-ups fire. -/
theorem grows_strike {fire? : Option (Definition → Origin → World → σ → Passage σ)} {depth : Nat}
    (hfire : ∀ fire, fire? = some fire → ∃ below < depth, ∀ d ∈ rules.catalog.events,
      ∀ origin world dice, Grows rules category below d origin world (fire d origin world dice))
    (d : Definition) (origin : Origin) (world : World) (dice : σ) :
    Grows rules category depth d origin world
      (strike rules fire? category d origin world dice) := by
  have hstruck : (struck category d origin world dice).world.year = world.year :=
    Effect.year_applyAll world d.effects
  obtain ⟨hyear, followUps, behind, hsub, hall, hlinks, hreach, hreports⟩ :=
    grown_follows hfire d d.followUps (struck category d origin world dice).world dice
  rw [strike_eq, Passage.andThen_of_none rfl]
  rw [hstruck] at hyear hreports
  refine ⟨hyear, .link d origin behind, rfl, rfl, .link hsub hall hlinks, hreach, ?_⟩
  show Occurrence.ofDefinition d category (struck category d origin world dice).world.year origin ::
    _ = _
  rw [hstruck]
  exact congrArg (_ :: ·) hreports

/-- What fires from an event is a chain that is no deeper than allowed. -/
theorem grows_fire (rules : Rules) (category : String) (depth : Nat) :
    ∀ d ∈ rules.catalog.events, ∀ origin world (dice : σ),
      Grows rules category depth d origin world
        (fire rules category depth d origin world dice) := by
  -- A chain may grow one step less behind its root, which is where the induction comes in.
  induction depth with
  | zero =>
    intro d hd origin world dice
    refine grows_strike ?_ d origin world dice
    intro fire hfire
    cases hfire
  | succ depth ih =>
    intro d hd origin world dice
    refine grows_strike ?_ d origin world dice
    intro fire hfire
    cases hfire
    exact ⟨depth, Nat.lt_succ_self depth, ih⟩

end Rules

/-! ## Years -/

/-- Whether a trigger that was tried fired: its roll lay below its chance. -/
def Trial.fires (t : Trial) : Bool := !t.roll.reaches t.trigger.chance

/-- A chain that a trigger sets off: its event, for the reason that the trigger gives. -/
structure Chain.OfTrigger (rules : Rules) (t : Trigger) (c : Chain) : Prop where
  found : rules.catalog.find? t.event = some c.event
  origin_eq : c.origin = .delayed t.scheduledBy t.scheduledIn
  linked : c.Linked rules
  depth_le : c.depth ≤ rules.settings.maxDepth.toNat

/-- A chain that a category begins: one of its events that are not reserved for follow-ups. -/
structure Chain.OfCategory (rules : Rules) (k : Category) (c : Chain) : Prop where
  candidate : c.event ∈ k.candidates
  origin_eq : c.origin = .scan
  linked : c.Linked rules
  depth_le : c.depth ≤ rules.settings.maxDepth.toNat

namespace Rules

variable {σ : Type} [Dice σ] {rules : Rules}

/-- Trials report one chain for each trigger that fires, in their order. -/
theorem Tried.exists_drained {trials : List Trial} {world world' : World} {dice dice' : σ}
    (h : Tried rules trials world dice world' dice') :
    world'.year = world.year ∧ ∃ drained : List (Trigger × Chain),
      drained.map (·.1) = (trials.filter (·.fires)).map (·.trigger) ∧
      (∀ e ∈ drained, e.2.OfTrigger rules e.1) ∧
      trials.flatMap (·.chain) =
        drained.flatMap fun e => e.2.report e.1.category world.year := by
  induction h with
  | done world dice => exact ⟨rfl, [], rfl, List.forall_mem_nil _, rfl⟩
  | @missed t trials world world' dice dice' hroll hrest ih =>
    obtain ⟨hyear, drained, htriggers, hchains, hreport⟩ := ih
    have hquiet : Trial.fires ⟨t, (Dice.roll dice).1, []⟩ = false := by
      simp [Trial.fires, hroll]
    refine ⟨hyear, drained, ?_, hchains, ?_⟩
    · rw [List.filter_cons_of_neg (Bool.eq_false_iff.1 hquiet)]
      exact htriggers
    · simpa using hreport
  | @fired t d p trials world world' dice dice' hroll hfind hchain hfault hrest ih =>
    obtain ⟨hyear, drained, htriggers, hchains, hreport⟩ := ih
    have hgrows : Grows rules t.category rules.settings.maxDepth.toNat d
        (.delayed t.scheduledBy t.scheduledIn) world p := by
      rw [← hchain]
      exact grows_fire rules t.category _ d (mem_events_of_find? hfind) _ _ _
    obtain ⟨hkept, c, hevent, horigin, hlinked, hdepth, hfired⟩ := hgrows
    have hfires : Trial.fires ⟨t, (Dice.roll dice).1, p.fired⟩ = true := by
      simp [Trial.fires, hroll]
    rw [hkept] at hyear hreport
    refine ⟨hyear, (t, c) :: drained, ?_, ?_, ?_⟩
    · rw [List.filter_cons_of_pos hfires, List.map_cons, List.map_cons, htriggers]
    · have hfound := hfind.trans (congrArg some hevent.symm)
      exact List.forall_mem_cons.2 ⟨⟨hfound, horigin, hlinked, hdepth⟩, hchains⟩
    · rw [List.flatMap_cons, List.flatMap_cons, hreport, hfired]

/-- The scan of a category reports nothing, or one chain that the category begins. -/
theorem exists_chain_scan {k : Category} (hk : k ∈ rules.catalog.categories) (world : World)
    (dice : σ) : (rules.scan k world dice).fired = [] ∨
      ∃ c : Chain, c.OfCategory rules k ∧
        (rules.scan k world dice).fired = c.report k.name world.year := by
  have hview := scanned rules k world dice
  generalize rules.scan k world dice = p at hview ⊢
  cases hview with
  | barren hnone => exact .inl rfl
  | silent hsome hquiet => exact .inl rfl
  | picked d hmem hquiet =>
    right
    obtain ⟨-, c, rfl, horigin, hlinked, hdepth, hfired⟩ :=
      grows_fire rules k.name rules.settings.maxDepth.toNat d
        (mem_events_of_mem_eligible hk hmem) .scan world
        (Dice.long ((eligible k world).length - 1) (rules.staysQuiet dice).2).2
    exact ⟨c, ⟨(List.mem_filter.1 hmem).1, horigin, hlinked, hdepth⟩, hfired⟩

/-- The scan of categories reports one chain for each that begins one, in their order. -/
theorem exists_picked (categories : List Category)
    (hsub : ∀ k ∈ categories, k ∈ rules.catalog.categories) (world : World) (dice : σ)
    (h : (Passage.each rules.scan categories world dice).fault = none) :
    ∃ picked : List (Category × Chain), (picked.map (·.1)).Sublist categories ∧
      (∀ e ∈ picked, e.2.OfCategory rules e.1) ∧
      (Passage.each rules.scan categories world dice).fired =
        picked.flatMap fun e => e.2.report e.1.name world.year := by
  induction categories generalizing world dice with
  | nil => exact ⟨[], .slnil, List.forall_mem_nil _, rfl⟩
  | cons k rest ih =>
    have hk := hsub k List.mem_cons_self
    unfold Passage.each at h ⊢
    obtain ⟨hfault, hrest⟩ := Passage.fault_andThen_eq_none.1 h
    obtain ⟨picked, hcategories, hchains, hfired⟩ :=
      ih (fun k hk => hsub k (List.mem_cons_of_mem _ hk)) _ _ hrest
    rw [Passage.andThen_of_none hfault]
    rw [year_scan hk] at hfired
    rcases exists_chain_scan hk world dice with hnone | ⟨c, hchain, hreport⟩
    · refine ⟨picked, hcategories.cons k, hchains, ?_⟩
      simpa [hnone] using hfired
    · refine ⟨(k, c) :: picked, hcategories.cons_cons k, ?_, ?_⟩
      · exact List.forall_mem_cons.2 ⟨hchain, hchains⟩
      · rw [List.flatMap_cons, ← hfired, ← hreport]

/-- A year is reported as a forest, each tree of it depth first. First comes one chain for each due
trigger whose roll lay below its chance, in queue order, then one for each category that begins one,
in catalog order. Behind each event stand chains of its follow-ups at once, in the order of its
follow-ups, each with the event as its parent; no chain is deeper than allowed. The events of a
chain have the category of its root and the year that was gone through. -/
theorem report_is_forest (rules : Rules) (year : Year) (world : World) (dice : σ)
    (h : (rules.passYear year world dice).fault = none) :
    ∃ (trials : List Trial) (world' : World) (dice' : σ) (drained : List (Trigger × Chain))
      (picked : List (Category × Chain)),
      trials.map (·.trigger) = world.due year ∧
      Tried rules trials (world.entered year) dice world' dice' ∧
      drained.map (·.1) = (trials.filter (·.fires)).map (·.trigger) ∧
      (picked.map (·.1)).Sublist rules.catalog.categories ∧
      (rules.passYear year world dice).fired =
        (drained.flatMap fun e => e.2.report e.1.category year) ++
          picked.flatMap (fun e => e.2.report e.1.name year) ∧
      (∀ e ∈ drained, e.2.OfTrigger rules e.1 ∧
        ∀ o ∈ e.2.report e.1.category year, o.category = e.1.category ∧ o.year = year) ∧
      ∀ e ∈ picked, e.2.OfCategory rules e.1 ∧
        ∀ o ∈ e.2.report e.1.name year, o.category = e.1.name ∧ o.year = year := by
  have hlater := not_lt_of_passYear h
  rw [passYear_eq hlater] at h ⊢
  obtain ⟨hfault, hscan⟩ := Passage.fault_andThen_eq_none.1 h
  obtain ⟨trials, htriggers, hdrain, htried⟩ := exists_tried rules _ _ dice hfault
  obtain ⟨hyear, drained, hdrained, hofTrigger, hreport⟩ := htried.exists_drained
  obtain ⟨picked, hpicked, hofCategory, hfired⟩ :=
    exists_picked rules.catalog.categories (fun k hk => hk) _ _ hscan
  rw [hyear] at hfired
  refine ⟨trials, _, _, drained, picked, htriggers, htried, hdrained, hpicked, ?_, ?_, ?_⟩
  · rw [Passage.andThen_of_none hfault, hdrain, hreport, hfired]
    rfl
  · exact fun e he => ⟨hofTrigger e he, fun o ho => Chain.of_mem_report ho⟩
  · exact fun e he => ⟨hofCategory e he, fun o ho => Chain.of_mem_report ho⟩

theorem report_is_forest_tolling :
    (tolling.passYear 1000 belfry still).fault = none ∧
    (tolling.passYear 1000 belfry still).fired.map (fun o => (o.id, o.origin)) =
      [("gale", .delayed "echo" 997), ("bell", .scan), ("echo", .followUp "bell"),
        ("echo", .followUp "echo"), ("gale", .scan)] ∧
    ∃ (drained : List (Trigger × Chain)) (picked : List (Category × Chain)),
      (tolling.passYear 1000 belfry still).fired =
        (drained.flatMap fun e => e.2.report e.1.category 1000) ++
          picked.flatMap (fun e => e.2.report e.1.name 1000) ∧
      (∀ e ∈ drained, e.2.OfTrigger tolling e.1) ∧ ∀ e ∈ picked, e.2.OfCategory tolling e.1 := by
  have hok : (tolling.passYear 1000 belfry still).fault = none := by decide +kernel
  obtain ⟨-, -, -, drained, picked, -, -, -, -, hfired, hdrained, hpicked⟩ :=
    report_is_forest tolling 1000 belfry still hok
  exact ⟨hok, by decide +kernel, drained, picked, hfired, fun e he => (hdrained e he).1,
    fun e he => (hpicked e he).1⟩

end Rules

end Annals
