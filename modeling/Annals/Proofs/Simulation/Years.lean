import Annals.Proofs.Simulation.Monarchs
import Annals.Proofs.Simulation.Runs
/-!
# The years of a run

A run tells of every year of its clock, in order and once. A year is told house by house in the
order of founding, and of the world last. Nothing is left over for the next year.

* `Simulation.chapters_told`: the chapters of a year are those of the dynasties, in their order.
* `Simulation.Sound.report_eq`: the report of a year.
* `Simulation.runFor_eq_after`: a run that is not cut short takes a step for every year left.
* `Simulation.handOver`: a run that hands its reports over one by one.
* `Simulation.run_tells_each_year`: what a run from a configuration tells.
-/

namespace Annals

/-! ## Turns -/

namespace House

variable {σ : Type} [Dice σ] {s : FamilySettings} {year : Year}

/-- What a turn brings is told of its year. -/
theorem Turned.year_eq {id : PersonId} {h h' : House σ} {events : List FamilyEvent}
    (hturned : Turned s year id h events h') : ∀ e ∈ events, e.year = year := by
  cases hturned with
  | gone hdead => exact List.forall_mem_nil _
  | aged hget halive hfared =>
    cases hfared with
    | quiet dice => exact List.forall_mem_nil _
    | died hother => exact List.forall_mem_singleton.2 rfl
    | succeeded isKing hmonarch hheir =>
      exact List.forall_mem_cons.2 ⟨rfl, List.forall_mem_singleton.2 rfl⟩
    | ended isKing hmonarch hheir =>
      exact List.forall_mem_cons.2 ⟨rfl, List.forall_mem_singleton.2 rfl⟩
    | married dice hgrown hsingle hpartner => exact List.forall_mem_singleton.2 rfl
    | bore drawn dice hfertile hfather arrival harrival =>
      exact List.forall_mem_singleton.2 rfl

theorem year_of_mem_passMembers (ids : List PersonId) (h : House σ) :
    ∀ e ∈ (h.passMembers s year ids).1, e.year = year := by
  induction ids generalizing h with
  | nil => exact List.forall_mem_nil _
  | cons id rest ih =>
    have hturn := (turned s year id h).year_eq
    exact List.forall_mem_append.2 ⟨hturn, ih _⟩

/-- The events of a dynasty's year are told of that year. -/
theorem year_of_mem_passYear (h : House σ) : ∀ e ∈ (h.passYear s year).1, e.year = year :=
  year_of_mem_passMembers h.dynasty.family h

end House

namespace Simulation

variable {σ : Type} [Dice σ] {s : Simulation σ}

/-! ## Names -/

/-- No step changes the names of the dynasties. -/
theorem map_name_step (hr : Ruled s.dynasties s.roster) :
    s.step.2.dynasties.map Dynasty.name = s.dynasties.map Dynasty.name := by
  rw [dynasties_step, ← map_dynasty_households, List.map_map, List.map_map]
  refine List.map_congr_left fun house hhouse => ?_
  have hruled := ((passed_step hr).between house hhouse).1
  exact (House.passed_passYear _ _ hruled).name

/-- The dynasties have the names of the configuration, in their order. -/
theorem map_name_after (c : Config) (catalog : Catalog) (dice : σ) (n : Nat) :
    ((ofConfig c catalog dice).after n).dynasties.map Dynasty.name = c.run.dynasties := by
  induction n with
  | zero =>
    exact Dynasty.map_name_foundAll c.run.startYear c.family.ageing.initialHealth
      c.run.dynasties .empty dice
  | succ n ih => exact (map_name_step (chronicled c catalog dice n).ruled).trans ih

/-! ## Chapters -/

/-- The events of a chapter are told of one dynasty and one year. -/
def TellsOf (year : Year) (name : String) (chapter : List FamilyEvent) : Prop :=
  ∀ e ∈ chapter, e.dynasty = name ∧ e.year = year

/-- The chapters of a year are those of the dynasties, in their order. -/
theorem chapters_told (hr : Ruled s.dynasties s.roster) :
    List.Forall₂ (TellsOf s.clock.year) (s.dynasties.map Dynasty.name) s.chapters := by
  rw [← map_dynasty_households, List.map_map]
  unfold chapters
  rw [List.forall₂_map_left_iff, List.forall₂_map_right_iff, List.forall₂_same]
  intro house hhouse e he
  have hruled := ((passed_step hr).between house hhouse).1
  exact ⟨(House.passed_passYear _ _ hruled).told e he, house.year_of_mem_passYear e he⟩

/-- What chapters side by side tell is told of their year. -/
theorem year_of_mem_flatten {year : Year} {names : List String}
    {chapters : List (List FamilyEvent)} (h : List.Forall₂ (TellsOf year) names chapters) :
    ∀ e ∈ chapters.flatten, e.year = year := by
  induction h with
  | nil => exact List.forall_mem_nil _
  | cons hchapter _ ih =>
    exact List.forall_mem_append.2 ⟨fun e he => (hchapter e he).2, ih⟩

/-- What the chapters of a year tell is told of that year. -/
theorem year_of_mem_chapters {e : FamilyEvent} (he : e ∈ s.chapters.flatten) :
    e.year = s.clock.year := by
  obtain ⟨chapter, hchapter, he⟩ := List.mem_flatten.1 he
  obtain ⟨house, -, rfl⟩ := List.mem_map.1 hchapter
  exact house.year_of_mem_passYear e he

/-! ## Steps of a run -/

/-- The report of a sound state that is on time: the chapters of the dynasties, then what fired in
the world, all of the year of the clock. -/
theorem Sound.report_eq (h : s.Sound) (htime : s.OnTime) :
    ∃ fired : List Occurrence, (∀ o ∈ fired, o.year = s.clock.year) ∧
      s.step.1 = .ok { year := s.clock.year
                       entries := s.chapters.flatten.map .family ++ fired.map .world } := by
  refine ⟨s.course.fired, s.rules.forall_year_passYear s.clock.year s.world _, ?_⟩
  rw [step_eq h.blank (h.fault_course htime), entries_passDynasties h.blank]

/-- While years are left, each step moves the clock on by one year, and the state stays on time. -/
theorem Sound.onTime_after (h : s.Sound) (htime : s.OnTime) {k : Nat} (hk : k ≤ s.clock.remaining) :
    (s.after k).OnTime ∧ (s.after k).clock.year.toInt = s.clock.year.toInt + k ∧
      (s.after k).clock.remaining = s.clock.remaining - k := by
  induction k with
  | zero => exact ⟨htime, (Int.add_zero _).symm, rfl⟩
  | succ k ih =>
    obtain ⟨hon, hyear, hremaining⟩ := ih (Nat.le_of_succ_le hk)
    -- The clock must be running for the next step to be on time.
    have hleft : (s.after k).clock.isFinished = false := by
      rw [Clock.isFinished_eq_false_iff, hremaining]
      exact Nat.sub_pos_of_lt hk
    obtain ⟨-, -, hclock⟩ := (h.after k).step_ok hon
    rw [after_succ, hclock, Clock.toInt_tick hleft, Clock.remaining_tick hleft, hyear, hremaining]
    exact ⟨(h.after k).onTime_step hon hleft, by omega, by omega⟩

/-! ## Runs -/

/-- A run that is bounded by the years left takes a step for each of them. -/
theorem runFor_eq_after (h : s.Sound) (htime : s.OnTime) {n : Nat} (hn : n ≤ s.clock.remaining) :
    runFor n s = { reports := s.told n, fault := none, last := s.after n } := by
  induction n generalizing s with
  | zero => rfl
  | succ n ih =>
    have hleft : s.clock.isFinished = false :=
      Clock.isFinished_eq_false_iff.2 (Nat.lt_of_lt_of_le (Nat.succ_pos n) hn)
    obtain ⟨⟨report, hreport⟩, -, hclock⟩ := h.step_ok htime
    have hn' : n ≤ s.step.2.clock.remaining := by
      rw [hclock, Clock.remaining_tick hleft]
      exact Nat.le_sub_one_of_lt hn
    -- The rest of the run starts from the next state, which is sound and on time again.
    have hrest := ih h.step (h.onTime_step htime hleft) hn'
    rw [after_step] at hrest
    have htold := told_step s n
    unfold runFor
    rw [if_neg (Bool.eq_false_iff.1 hleft), ← htold]
    rcases hstep : s.step with ⟨result, next⟩
    rw [hstep] at hreport hrest
    cases hreport
    change runFor n next = _ at hrest
    dsimp only
    rw [hrest]
    rfl

/-- The reports of a run have the years of its clock, in order. -/
theorem years_told (h : s.Sound) (htime : s.OnTime) {n : Nat} (hn : n ≤ s.clock.remaining) :
    (s.told n).map (fun r => r.year.toInt) =
      (List.range n).map fun k : Nat => s.clock.year.toInt + k := by
  induction n with
  | zero => rfl
  | succ n ih =>
    obtain ⟨hon, hyear, -⟩ := h.onTime_after htime (Nat.le_of_succ_le hn)
    obtain ⟨fired, -, hreport⟩ := (h.after n).report_eq hon
    rw [told_succ, hreport, List.map_append, ih (Nat.le_of_succ_le hn), List.range_succ,
      List.map_append]
    exact congrArg (_ ++ [·]) hyear

/-- The report of a place is that of the step with its number. -/
theorem getElem?_told (h : s.Sound) (htime : s.OnTime) {n k : Nat} (hn : n ≤ s.clock.remaining)
    (hk : k < n) : (s.told n)[k]? = (s.after k).step.1.toOption := by
  induction n with
  | zero => exact absurd hk (Nat.not_lt_zero k)
  | succ n ih =>
    have hn' := Nat.le_of_succ_le hn
    have hlength : (s.told n).length = n := by
      simpa using congrArg List.length (years_told h htime hn')
    obtain ⟨hon, -, -⟩ := h.onTime_after htime hn'
    obtain ⟨⟨report, hreport⟩, -, -⟩ := (h.after n).step_ok hon
    rw [told_succ, hreport]
    -- The last report is that of the last step; the others were there before.
    rcases Nat.lt_succ_iff_lt_or_eq.1 hk with hbefore | rfl
    · rw [List.getElem?_append_left (hbefore.trans_eq hlength.symm)]
      exact ih hn' hbefore
    · rw [List.getElem?_append_right (Nat.le_of_eq hlength), hlength, Nat.sub_self, hreport]
      rfl

/-- A run that hands over every report as soon as its year is finished. The reader keeps a state of
its own, and the first report that it refuses ends the run. -/
def handFor {ε τ : Type} (read : τ → Report → Except ε τ) (broken : CourseFault → ε) :
    Nat → Simulation σ → τ → Except ε τ × Simulation σ
  | 0, s, t => (.ok t, s)
  | n + 1, s, t =>
    if s.clock.isFinished then (.ok t, s)
    else
      match s.step with
      | (.error fault, s) => (.error (broken fault), s)
      | (.ok report, s) =>
        match read t report with
        | .error e => (.error e, s)
        | .ok t => handFor read broken n s t

/-- Hands over the reports of the years that are left. -/
def handOver {ε τ : Type} (read : τ → Report → Except ε τ) (broken : CourseFault → ε)
    (s : Simulation σ) (t : τ) : Except ε τ × Simulation σ :=
  handFor read broken s.clock.remaining s t

/-- Without a fault a reader gets the reports of the run one by one. When it refuses none, the run
ends as it would without a reader. -/
theorem handFor_eq {ε τ : Type} (read : τ → Report → Except ε τ) (broken : CourseFault → ε)
    {n : Nat} (h : (runFor n s).fault = none) (t : τ) :
    (handFor read broken n s t).1 = (runFor n s).reports.foldlM read t ∧
    ∀ t', (runFor n s).reports.foldlM read t = .ok t' →
      (handFor read broken n s t).2 = (runFor n s).last := by
  induction n generalizing s t with
  | zero => exact ⟨rfl, fun _ _ => rfl⟩
  | succ n ih =>
    unfold runFor at h ⊢
    unfold handFor
    split at h
    case isTrue hdone =>
      rw [if_pos hdone, if_pos hdone]
      exact ⟨rfl, fun _ _ => rfl⟩
    case isFalse hleft =>
      rw [if_neg hleft, if_neg hleft]
      rcases hstep : s.step with ⟨result, next⟩
      rw [hstep] at h
      cases result with
      | error fault => cases h
      | ok report =>
        dsimp only
        rw [List.foldlM_cons]
        cases hread : read t report with
        | error e =>
          refine ⟨rfl, fun t' ht => ?_⟩
          cases ht
        | ok t' => exact ih h t'

/-- Over a loaded catalog a run has no fault. Its reports have the years from the first one of the
clock up to the last one before its end, each once and in order, and a reader gets them one by one;
the run succeeds when the reader refuses none. A report tells of the dynasties in the order of their
founding, chapter by chapter, and then of the world, and every entry is of its year. After each step
the world is in the year that has just been told, and the book is blank. -/
theorem run_tells_each_year (c : Config) {catalog : Catalog} (hcat : catalog.Loaded) (dice : σ) :
    let s := ofConfig c catalog dice
    let years := (s.clock.stop.toInt - s.clock.year.toInt).toNat
    s.clock = .start c.run.startYear c.run.years ∧
    s.run.fault = none ∧
    (∀ {ε τ : Type} (read : τ → Report → Except ε τ) (broken : CourseFault → ε) (t : τ),
      (s.handOver read broken t).1 = s.run.reports.foldlM read t ∧
      ∀ t', s.run.reports.foldlM read t = .ok t' → (s.handOver read broken t).2 = s.run.last) ∧
    s.run.reports.map (fun r => r.year.toInt) =
      (List.range years).map (fun k : Nat => c.run.startYear.toInt + k) ∧
    s.run.last = s.after years ∧
    ∀ k < years, ∃ (report : Report) (chapters : List (List FamilyEvent))
        (fired : List Occurrence),
      s.run.reports[k]? = some report ∧
      report.entries = chapters.flatten.map .family ++ fired.map .world ∧
      List.Forall₂ (TellsOf report.year) c.run.dynasties chapters ∧
      (∀ e ∈ report.entries, e.year = report.year) ∧
      (s.after (k + 1)).world.year = report.year ∧ (s.after (k + 1)).book = .blank := by
  intro s years
  have hsound : s.Sound := sound_ofConfig c hcat dice
  have htime : s.OnTime := onTime_ofConfig c catalog dice
  have hrun : s.run = { reports := s.told years, fault := none, last := s.after years } :=
    runFor_eq_after hsound htime (Nat.le_refl _)
  have hfault : s.run.fault = none := by rw [hrun]
  refine ⟨rfl, hfault, fun read broken t => handFor_eq read broken hfault t, ?_, ?_, ?_⟩
  · rw [hrun]
    exact years_told hsound htime (Nat.le_refl _)
  · rw [hrun]
  · intro k hk
    obtain ⟨hon, -, -⟩ := hsound.onTime_after htime (Nat.le_of_lt hk)
    have hsound' := hsound.after k
    obtain ⟨fired, hfired, hreport⟩ := hsound'.report_eq hon
    obtain ⟨-, hyear, -⟩ := hsound'.step_ok hon
    have hchapters := chapters_told (chronicled c catalog dice k).ruled
    rw [map_name_after] at hchapters
    refine ⟨⟨(s.after k).clock.year, _⟩, (s.after k).chapters, fired, ?_, rfl, hchapters, ?_, hyear,
      hsound'.step.blank⟩
    · rw [hrun]
      exact (getElem?_told hsound htime (Nat.le_refl _) hk).trans (by rw [hreport]; rfl)
    · refine List.forall_mem_append.2 ⟨?_, ?_⟩
      · exact List.forall_mem_map.2 (year_of_mem_flatten hchapters)
      · exact List.forall_mem_map.2 hfired

/-- A configuration that asks for more years than the calendar has left. -/
def lateDays : Config :=
  { run := { startYear := Year.last - 2, years := 4000000000
             dynasties := ["House Nerdival", "House Vael"] } }

/-- Of the years that are asked for, the two before the last one of the calendar are told. -/
theorem run_tells_each_year_late :
    let s := ofConfig lateDays .bells Rules.still
    Catalog.bells.Loaded ∧ s.run.fault = none ∧
    s.run.reports.map (fun r => r.year.toInt) = [2147483645, 2147483646] ∧
    s.run.last = s.after 2 ∧
    ∃ (report : Report) (chapters : List (List FamilyEvent)) (fired : List Occurrence),
      s.run.reports[1]? = some report ∧
      report.entries = chapters.flatten.map .family ++ fired.map .world ∧
      List.Forall₂ (TellsOf report.year) ["House Nerdival", "House Vael"] chapters ∧
      (s.after 2).world.year = report.year ∧ (s.after 2).book = .blank := by
  have hrun := run_tells_each_year lateDays Catalog.bells_loaded Rules.still
  -- Nothing of the run is evaluated but its clock.
  generalize ofConfig lateDays .bells Rules.still = s at hrun ⊢
  obtain ⟨hclock, hfault, -, hyears, hlast, hreports⟩ := hrun
  have hcount : (s.clock.stop.toInt - s.clock.year.toInt).toNat = 2 := by
    rw [hclock]
    decide
  have htold : (List.range 2).map (fun k : Nat => lateDays.run.startYear.toInt + k) =
      [2147483645, 2147483646] := by decide
  rw [hcount] at hyears hlast hreports
  obtain ⟨report, chapters, fired, hreport, hentries, hchapters, -, hyear, hblank⟩ :=
    hreports 1 (by decide)
  exact ⟨Catalog.bells_loaded, hfault, hyears.trans htold, hlast, report, chapters, fired, hreport,
    hentries, hchapters, hyear, hblank⟩

end Simulation

end Annals
