import Annals.Proofs.Course.Years
import Annals.Proofs.Dice
/-!
# The scan of the categories

The categories are scanned one after the other, each in the world that the due triggers and the
categories before it leave. That world is the replay of the report up to there, so the report alone
tells which events were eligible when a category was scanned.

* `Rules.fired_fire`: only the root of a chain can be picked.
* `Rules.Contributed`: what a category can add to the report of a year.
* `Rules.Scanning`: what categories add one after the other, each in the replay of those before.
* `Rules.scan_sound_complete`: picks were eligible, and a category that is certain to begin a chain
  begins none only when nothing is.
-/

namespace Annals

namespace Rules

variable {σ : Type} [Dice σ]

/-! ## Roots of chains -/

omit [Dice σ] in
/-- Effects do not change the year under which an event is reported. -/
theorem fired_struck (category : String) (d : Definition) (origin : Origin) (world : World)
    (dice : σ) :
    (struck category d origin world dice).fired =
      [.ofDefinition d category world.year origin] := by
  show [Occurrence.ofDefinition d category (Effect.applyAll world d.effects).1.year origin] = _
  rw [Effect.year_applyAll]

/-- A chain is reported with its root first; no event behind the root was picked. -/
theorem fired_fire (rules : Rules) (category : String) (depth : Nat) :
    ∀ d ∈ rules.catalog.events, ∀ origin world (dice : σ),
      ∃ rest, (fire rules category depth d origin world dice).fired =
          .ofDefinition d category world.year origin :: rest ∧
        ∀ o ∈ rest, o.origin.isScan = false := by
  -- The events behind the root are the chains of follow-ups, whose roots were not picked either.
  refine fire_induction (P := fun d origin world _ p =>
    ∃ rest, p.fired = .ofDefinition d category world.year origin :: rest ∧
      ∀ o ∈ rest, o.origin.isScan = false) ?_ depth
  intro fire? hfire d hd origin world dice
  have hlink : ∀ f ∈ d.followUps, ∀ world dice,
      ∀ o ∈ (follow rules fire? d category f world dice).fired, o.origin.isScan = false := by
    intro f hf world dice
    have hview := followed rules fire? d category f world dice
    generalize follow rules fire? d category f world dice = p at hview ⊢
    cases hview with
    | queued hdelay => exact List.forall_mem_nil _
    | dropped hdelay hnone => exact List.forall_mem_nil _
    | missed fire hdelay hsome hroll => exact List.forall_mem_nil _
    | unknown fire hdelay hsome hroll hfind => exact List.forall_mem_nil _
    | fired fire next hdelay hsome hroll hfind =>
      obtain ⟨rest, hrest, hnoScan⟩ := hfire fire hsome next (mem_events_of_find? hfind)
        (.followUp d.id) world (Dice.roll dice).2
      rw [hrest]
      exact List.forall_mem_cons.2 ⟨rfl, hnoScan⟩
  have hlinks := (Passage.Composes.forall_fired fun o => o.origin.isScan = false).each hlink
    (struck category d origin world dice).world dice
  rw [strike_eq, Passage.andThen_of_none rfl]
  exact ⟨_, congrArg (· ++ _) (fired_struck category d origin world dice), hlinks⟩

/-- No event of the chain of a trigger was picked. -/
theorem isScan_tryTrigger (rules : Rules) (t : Trigger) (world : World) (dice : σ) :
    ∀ o ∈ (rules.tryTrigger t world dice).fired, o.origin.isScan = false := by
  have hview := attempted rules t world dice
  generalize rules.tryTrigger t world dice = p at hview ⊢
  cases hview with
  | missed hroll => exact List.forall_mem_nil _
  | unknown hroll hfind => exact List.forall_mem_nil _
  | fired d hroll hfind =>
    obtain ⟨rest, hrest, hnoScan⟩ := fired_fire rules t.category rules.settings.maxDepth.toNat d
      (mem_events_of_find? hfind) (.delayed t.scheduledBy t.scheduledIn) world (Dice.roll dice).2
    unfold fireRoot
    rw [hrest]
    exact List.forall_mem_cons.2 ⟨rfl, hnoScan⟩

/-! ## One category -/

/-- What a category can add to the report when it is scanned in a world. -/
inductive Contributed (rules : Rules) (c : Category) (w : World) : List Occurrence → Prop where
  /-- Nothing, unless it is certain to begin a chain with an event that is eligible. -/
  | nothing (hnone : 1.0 ≤ rules.settings.categoryChance → eligible c w = []) :
      Contributed rules c w []
  /-- One of its eligible events, followed by events that were not picked. -/
  | chain (d : Definition) (rest : List Occurrence) (hd : d ∈ eligible c w)
      (hrest : ∀ o ∈ rest, o.origin.isScan = false) :
      Contributed rules c w (.ofDefinition d c.name w.year .scan :: rest)

/-- A category does not stay quiet when it is certain to begin a chain. -/
theorem staysQuiet_of_le {rules : Rules} (h : 1.0 ≤ rules.settings.categoryChance) (dice : σ) :
    rules.staysQuiet dice = (false, dice) := by
  unfold staysQuiet
  exact if_neg (Dice.not_lt_of_le h)

/-- Which events are eligible depends on the stats and the year of the world. -/
theorem eligible_congr {w v : World} (hstats : w.SameStats v) (hyear : w.year = v.year)
    (c : Category) : eligible c w = eligible c v := by
  unfold eligible
  exact List.filter_congr fun d _ => hstats.allHold hyear d.conditions

theorem contributed_scan {rules : Rules} {c : Category} (hc : c ∈ rules.catalog.categories)
    (w : World) (dice : σ) : Contributed rules c w (rules.scan c w dice).fired := by
  have hview := scanned rules c w dice
  generalize rules.scan c w dice = p at hview ⊢
  cases hview with
  | barren hnone => exact .nothing fun _ => hnone
  | silent hsome hquiet =>
    refine .nothing fun hcertain => ?_
    rw [staysQuiet_of_le hcertain] at hquiet
    cases hquiet
  | picked d hmem hquiet =>
    obtain ⟨rest, hrest, hnoScan⟩ := fired_fire rules c.name rules.settings.maxDepth.toNat d
      (mem_events_of_mem_eligible hc hmem) .scan w
      (Dice.long ((eligible c w).length - 1) (rules.staysQuiet dice).2).2
    unfold fireRoot
    rw [hrest]
    exact .chain d rest hmem hnoScan

theorem Contributed.congr {rules : Rules} {c : Category} {w v : World} {chain : List Occurrence}
    (h : Contributed rules c w chain) (hstats : w.SameStats v) (hyear : w.year = v.year) :
    Contributed rules c v chain := by
  have heligible := eligible_congr hstats hyear c
  cases h with
  | nothing hnone => exact .nothing fun hcertain => heligible.symm.trans (hnone hcertain)
  | chain d rest hd hrest =>
    rw [hyear]
    rw [heligible] at hd
    exact .chain d rest hd hrest

namespace Contributed

variable {rules : Rules} {c : Category} {w : World} {chain : List Occurrence}

/-- A category adds nothing, or the chain of one of its events. -/
theorem eq_nil_or (h : Contributed rules c w chain) :
    chain = [] ∨ ∃ d ∈ c.events, ∃ rest,
      chain = .ofDefinition d c.name w.year .scan :: rest ∧
        ∀ o ∈ rest, o.origin.isScan = false := by
  cases h with
  | nothing hnone => exact .inl rfl
  | chain d rest hd hrest => exact .inr ⟨d, (mem_eligible.1 hd).1, rest, rfl, hrest⟩

/-- When a category that is certain to begin a chain adds nothing, none of its events could begin
one. -/
theorem allHold_eq_false (h : Contributed rules c w [])
    (hcertain : 1.0 ≤ rules.settings.categoryChance) {d : Definition} (hd : d ∈ c.events)
    (hopen : d.followUpOnly = false) : Condition.allHold w d.conditions = false := by
  cases h with
  | nothing hnone =>
    rw [← Bool.not_eq_true]
    intro hhold
    have hmem := mem_eligible.2 ⟨hd, hopen, hhold⟩
    rw [hnone hcertain] at hmem
    cases hmem

end Contributed

/-! ## All categories -/

theorem filter_isScan_eq_nil {fired : List Occurrence}
    (h : ∀ o ∈ fired, o.origin.isScan = false) : fired.filter (·.origin.isScan) = [] := by
  rw [List.filter_eq_nil_iff]
  intro o ho hscan
  rw [h o ho] at hscan
  cases hscan

/-- A picked event stands behind any part of a report that has none. -/
theorem exists_of_append_eq {quiet fired before after : List Occurrence} {o : Occurrence}
    (h : quiet ++ fired = before ++ o :: after) (hquiet : ∀ o ∈ quiet, o.origin.isScan = false)
    (hscan : o.origin.isScan = true) :
    ∃ earlier, before = quiet ++ earlier ∧ fired = earlier ++ o :: after := by
  rcases List.append_eq_append_iff.1 h with ⟨earlier, hbefore, hfired⟩ | ⟨later, hsplit, hfired⟩
  · exact ⟨earlier, hbefore, hfired⟩
  · cases later with
    | nil => exact ⟨[], by simp [hsplit], hfired.symm⟩
    | cons o' later =>
      -- The event would stand in the part without picks.
      cases hfired
      have hmem : o ∈ quiet := by
        rw [hsplit]
        exact List.mem_append_right before List.mem_cons_self
      rw [hquiet o hmem] at hscan
      cases hscan

/-- What categories add to the report one after the other, each in the replay of what those before
it have added. -/
inductive Scanning (rules : Rules) : World → List Category → List (List Occurrence) → Prop where
  | done (w : World) : Scanning rules w [] []
  | next {w : World} {c : Category} {chain : List Occurrence} {categories : List Category}
      {chains : List (List Occurrence)} (hchain : Contributed rules c w chain)
      (hrest : Scanning rules (w.replay chain) categories chains) :
      Scanning rules w (c :: categories) (chain :: chains)

/-- The scan of categories is described by its report, from any world with the same stats. -/
theorem exists_scanning (rules : Rules) (categories : List Category)
    (hsub : ∀ c ∈ categories, c ∈ rules.catalog.categories) (w v : World) (dice : σ)
    (hstats : w.SameStats v) (hyear : w.year = v.year)
    (h : (Passage.each rules.scan categories w dice).fault = none) :
    ∃ chains, (Passage.each rules.scan categories w dice).fired = chains.flatten ∧
      Scanning rules v categories chains := by
  induction categories generalizing w v dice with
  | nil => exact ⟨[], rfl, .done v⟩
  | cons c rest ih =>
    have hc := hsub c List.mem_cons_self
    unfold Passage.each at h ⊢
    obtain ⟨hfault, hrest⟩ := Passage.fault_andThen_eq_none.1 h
    -- Both the world and its replay go through the report of the first category.
    have hafter := (sameStats_scan hc w dice).trans (hstats.replay _)
    have hsame : (rules.scan c w dice).world.year =
        (v.replay (rules.scan c w dice).fired).year := by
      rw [year_scan hc, World.year_replay, hyear]
    obtain ⟨chains, hfired, hscanning⟩ :=
      ih (fun k hk => hsub k (List.mem_cons_of_mem _ hk)) _ _ _ hafter hsame hrest
    refine ⟨(rules.scan c w dice).fired :: chains, ?_, ?_⟩
    · rw [Passage.andThen_of_none hfault, List.flatten_cons, ← hfired]
    · exact .next ((contributed_scan hc w dice).congr hstats hyear) hscanning

namespace Scanning

variable {rules : Rules} {w : World} {categories : List Category} {chains : List (List Occurrence)}

theorem length_eq (h : Scanning rules w categories chains) :
    chains.length = categories.length := by
  induction h with
  | done w => rfl
  | next hchain hrest ih => rw [List.length_cons, List.length_cons, ih]

/-- The picks come in the order of the categories, at most one from each. -/
theorem sublist (h : Scanning rules w categories chains) :
    ((chains.flatten.filter (·.origin.isScan)).map (·.category)).Sublist
      (categories.map (·.name)) := by
  induction h with
  | done w => exact List.Sublist.refl _
  | next hchain hrest ih =>
    rw [List.flatten_cons, List.filter_append, List.map_append, List.map_cons]
    cases hchain with
    | nothing hnone => exact ih.cons _
    | chain d rest hd hnoScan =>
      rw [List.filter_cons_of_pos rfl, filter_isScan_eq_nil hnoScan]
      exact ih.cons_cons _

/-- Each category adds to the report in the replay of what those before it have added. -/
theorem contributed (h : Scanning rules w categories chains) (i : Nat) {c : Category}
    {chain : List Occurrence} (hc : categories[i]? = some c) (hchain : chains[i]? = some chain) :
    Contributed rules c (w.replay (chains.take i).flatten) chain := by
  induction h generalizing i with
  | done w => cases hc
  | next hfirst hrest ih =>
    cases i with
    | zero =>
      cases hc
      cases hchain
      exact hfirst
    | succ i =>
      rw [List.getElem?_cons_succ] at hc hchain
      rw [List.take_succ_cons, List.flatten_cons, World.replay_append]
      exact ih i hc hchain

/-- A pick was eligible in the replay of the report up to it. -/
theorem eligible_of_eq (h : Scanning rules w categories chains) {before after : List Occurrence}
    {o : Occurrence} (hfired : chains.flatten = before ++ o :: after)
    (hscan : o.origin.isScan = true) :
    ∃ c ∈ categories, ∃ d ∈ eligible c (w.replay before),
      o = .ofDefinition d c.name w.year .scan := by
  induction h generalizing before with
  | done w => simp at hfired
  | @next w c chain categories chains hchain hrest ih =>
    -- The pick is the root of this chain, or it stands behind all of it.
    have hlater : ∀ earlier, before = chain ++ earlier →
        chains.flatten = earlier ++ o :: after →
        ∃ k ∈ c :: categories, ∃ d ∈ eligible k (w.replay before),
          o = .ofDefinition d k.name w.year .scan := by
      intro earlier hbefore hrestFired
      obtain ⟨k, hk, d, hd, ho⟩ := ih hrestFired
      rw [World.year_replay] at ho
      rw [hbefore, World.replay_append]
      exact ⟨k, List.mem_cons_of_mem _ hk, d, hd, ho⟩
    rw [List.flatten_cons] at hfired
    cases hchain with
    | nothing hnone => exact hlater before rfl hfired
    | chain d rest hd hnoScan =>
      cases before with
      | nil =>
        cases hfired
        exact ⟨c, List.mem_cons_self, d, hd, rfl⟩
      | cons root before =>
        rw [List.cons_append, List.cons_append, List.cons.injEq] at hfired
        obtain ⟨rfl, hbehind⟩ := hfired
        obtain ⟨earlier, rfl, hrestFired⟩ := exists_of_append_eq hbehind hnoScan hscan
        exact hlater earlier rfl hrestFired

end Scanning

/-! ## One year -/

/-- The part of a year that tries its due triggers. -/
def drain (rules : Rules) (year : Year) (world : World) (dice : σ) : Passage σ :=
  Passage.each rules.tryTrigger (world.due year) (world.entered year) dice

variable {rules : Rules} {year : Year} {world : World}

theorem isScan_drain (rules : Rules) (year : Year) (world : World) (dice : σ) :
    ∀ o ∈ (rules.drain year world dice).fired, o.origin.isScan = false :=
  (Passage.Composes.forall_fired _).each (fun t _ => isScan_tryTrigger rules t) _ dice

theorem year_drain (rules : Rules) (year : Year) (world : World) (dice : σ) :
    (rules.drain year world dice).world.year = year :=
  Passage.Composes.keepsYear.each (fun t _ => year_tryTrigger rules t)
    (world.entered year) dice

theorem sameStats_drain (rules : Rules) (year : Year) (world : World) (dice : σ) :
    (rules.drain year world dice).world.SameStats
      (({ world with year } : World).replay (rules.drain year world dice).fired) := by
  have hentered : (world.entered year).SameStats { world with year } := ⟨rfl, rfl⟩
  have hdrain : (rules.drain year world dice).world.SameStats
      ((world.entered year).replay (rules.drain year world dice).fired) :=
    Passage.Composes.replays.each (fun t _ => sameStats_tryTrigger rules t) _ dice
  exact hdrain.trans (hentered.replay _)

/-- Behind the due triggers, the report of a year is described as a scan. -/
theorem exists_scanning_passYear {dice : σ} (h : (rules.passYear year world dice).fault = none) :
    ∃ chains, (rules.passYear year world dice).fired =
        (rules.drain year world dice).fired ++ chains.flatten ∧
      Scanning rules
        (({ world with year } : World).replay (rules.drain year world dice).fired)
        rules.catalog.categories chains := by
  have hparts : rules.passYear year world dice = (rules.drain year world dice).andThen
      (Passage.each rules.scan rules.catalog.categories) := passYear_eq (not_lt_of_passYear h) dice
  rw [hparts] at h ⊢
  obtain ⟨hfault, hscan⟩ := Passage.fault_andThen_eq_none.1 h
  rw [Passage.andThen_of_none hfault]
  have hyear : (rules.drain year world dice).world.year =
      (({ world with year } : World).replay (rules.drain year world dice).fired).year := by
    rw [year_drain, World.year_replay]
  obtain ⟨chains, hfired, hscanning⟩ := exists_scanning rules rules.catalog.categories
    (fun c hc => hc) _ _ _ (sameStats_drain rules year world dice) hyear hscan
  exact ⟨chains, congrArg (_ ++ ·) hfired, hscanning⟩

/-- The scan of a year is sound and complete. The picks of a year come in the order of the
categories, at most one from each. Each was in its category, not reserved for follow-ups, and had
all conditions fulfilled in the replay of what is reported before it. The report consists of the
chains of the due triggers and one part for each category; when categories are certain to begin
chains, the part of a category is empty only if none of its events could begin one there. -/
theorem scan_sound_complete (rules : Rules) (year : Year) (world : World) (dice : σ)
    (h : (rules.passYear year world dice).fault = none) :
    (((rules.passYear year world dice).fired.filter (·.origin.isScan)).map (·.category)).Sublist
      (rules.catalog.categories.map (·.name)) ∧
    (∀ before o after, (rules.passYear year world dice).fired = before ++ o :: after →
      o.origin.isScan = true →
        ∃ c ∈ rules.catalog.categories, ∃ d ∈ c.events,
          o = .ofDefinition d c.name year .scan ∧ d.followUpOnly = false ∧
          Condition.allHold (({ world with year } : World).replay before) d.conditions = true) ∧
    ∃ chains : List (List Occurrence),
      (rules.passYear year world dice).fired =
        (rules.drain year world dice).fired ++ chains.flatten ∧
      (∀ o ∈ (rules.drain year world dice).fired, o.origin.isScan = false) ∧
      chains.length = rules.catalog.categories.length ∧
      ∀ i c chain, rules.catalog.categories[i]? = some c → chains[i]? = some chain →
        (chain = [] ∨ ∃ d ∈ c.events, ∃ rest,
          chain = .ofDefinition d c.name year .scan :: rest ∧
          ∀ o ∈ rest, o.origin.isScan = false) ∧
        (1.0 ≤ rules.settings.categoryChance → chain = [] →
          ∀ d ∈ c.events, d.followUpOnly = false →
            Condition.allHold (({ world with year } : World).replay
              ((rules.drain year world dice).fired ++ (chains.take i).flatten)) d.conditions =
                false) := by
  obtain ⟨chains, hfired, hscanning⟩ := exists_scanning_passYear h
  have hquiet := isScan_drain rules year world dice
  rw [hfired]
  refine ⟨?_, ?_, chains, rfl, hquiet, hscanning.length_eq, ?_⟩
  · rw [List.filter_append, filter_isScan_eq_nil hquiet]
    exact hscanning.sublist
  · intro before o after hsplit hscan
    obtain ⟨earlier, rfl, hlater⟩ := exists_of_append_eq hsplit hquiet hscan
    obtain ⟨c, hc, d, hd, ho⟩ := hscanning.eligible_of_eq hlater hscan
    obtain ⟨hmem, hopen, hhold⟩ := mem_eligible.1 hd
    rw [World.year_replay] at ho
    rw [World.replay_append]
    exact ⟨c, hc, d, hmem, ho, hopen, hhold⟩
  · intro i c chain hc hchain
    have hcontributed := hscanning.contributed i hc hchain
    rw [World.replay_append]
    constructor
    · simpa only [World.year_replay] using hcontributed.eq_nil_or
    · rintro hcertain rfl d hd hopen
      exact hcontributed.allHold_eq_false hcertain hd hopen

theorem scan_sound_complete_tolling :
    (tolling.passYear 1000 belfry still).fault = none ∧
    (tolling.passYear 1000 belfry still).fired.map (fun o => (o.id, o.origin.isScan)) =
      [("gale", false), ("bell", true), ("echo", false), ("echo", false), ("gale", true)] ∧
    (((tolling.passYear 1000 belfry still).fired.filter (·.origin.isScan)).map
      (·.category)).Sublist (tolling.catalog.categories.map (·.name)) ∧
    (∀ before o after, (tolling.passYear 1000 belfry still).fired = before ++ o :: after →
      o.origin.isScan = true →
        ∃ c ∈ tolling.catalog.categories, ∃ d ∈ c.events,
          o = .ofDefinition d c.name 1000 .scan ∧ d.followUpOnly = false ∧
          Condition.allHold (({ belfry with year := 1000 } : World).replay before) d.conditions =
            true) := by
  have hok : (tolling.passYear 1000 belfry still).fault = none := by decide +kernel
  have hall := scan_sound_complete tolling 1000 belfry still hok
  exact ⟨hok, by decide +kernel, hall.1, hall.2.1⟩

end Rules

end Annals
