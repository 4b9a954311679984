import Annals.Proofs.Catalog.Reload
import Annals.Proofs.Course.Shift
import Annals.Proofs.Family.Census
import Annals.Proofs.Family.Shift
import Annals.Proofs.Simulation.Years
/-!
# Runs in another calendar

A history does not depend on where the calendar begins. Two runs that begin in different years, and
do not come to an end of the calendar, go the same way: the same draws, names, ages and picks, with
every year of the one as many years away from that of the other as the first year is.

* `Report.shift`, `Report.years`: a report as another calendar dates it, and its years.
* `Simulation.shift`, `Simulation.years`: the same for the state of a simulation.
* `Simulation.StaysInCalendar`, `Simulation.InCalendar`: no year of a step or of a run is lost.
* `Simulation.Shiftable`: a state that can be told in the other calendar; `Shiftable.step`: so can
  what a step makes of it.
* `Simulation.history_without_origin`: runs from a configuration.
-/

namespace Annals

/-! ## What is told -/

namespace Entry

/-- An entry as another calendar dates it. -/
def shift (k : Int) : Entry → Entry
  | .world event => .world (event.shift k)
  | .family event => .family (event.shift k)

/-- The years that stand in an entry. -/
def years : Entry → List Year
  | .world event => event.years
  | .family event => [event.year]

end Entry

namespace Report

/-- A report as another calendar dates it. -/
def shift (k : Int) (r : Report) : Report :=
  { year := r.year.shift k, entries := r.entries.map (Entry.shift k) }

/-- The years that stand in a report. -/
def years (r : Report) : List Year := r.year :: r.entries.flatMap Entry.years

end Report

/-- A book as another calendar dates its entries. -/
def YearBook.shift (k : Int) (b : YearBook) : YearBook :=
  { b with entries := b.entries.map (Entry.shift k) }

/-- The configuration with another first year. -/
def Config.startingIn (c : Config) (start : Year) : Config :=
  { c with run := { c.run with startYear := start } }

namespace Simulation

variable {σ : Type}

/-- A simulation as another calendar counts its years, with a clock that stops at some year. -/
def shift (k : Int) (stop : Year) (s : Simulation σ) : Simulation σ :=
  { s with
    clock := { year := s.clock.year.shift k, stop }
    world := s.world.shift k
    roster := s.roster.shift k
    book := s.book.shift k }

/-- The years that stand in a simulation: that of the clock, and those in the world and in the
roster. -/
def years (s : Simulation σ) : List Year := s.clock.year :: (s.world.years ++ s.roster.years)

variable [Dice σ]

/-- Whoever comes to the market in the next year. -/
def strangers (s : Simulation σ) : List Person :=
  s.passMarket.roster.toList.drop s.roster.size

/-- The next step stays within the calendar: strangers are as old as their years of birth tell, the
waits that begin in it end within the calendar, and there is a year after it. -/
structure StaysInCalendar (s : Simulation σ) : Prop where
  strangers : ∀ p ∈ s.strangers, s.clock.year.Apart p.birthYear
  waits : ∀ r ∈ s.step.1.toOption, ∀ o ∈ r.occurrences, o.InCalendar s.rules.catalog
  tick : s.clock.year ≠ .last

/-- A run of `n` steps stays within the calendar, from the founders on. -/
structure InCalendar (s : Simulation σ) (n : Nat) : Prop where
  founders : ∀ p ∈ s.roster.toList, s.clock.year.Apart p.birthYear
  steps : ∀ m < n, (s.after m).StaysInCalendar

instance (s : Simulation σ) : Decidable s.StaysInCalendar :=
  decidable_of_iff ((∀ p ∈ s.strangers, s.clock.year.Apart p.birthYear) ∧
    (∀ r ∈ s.step.1.toOption, ∀ o ∈ r.occurrences, o.InCalendar s.rules.catalog) ∧
    s.clock.year ≠ .last)
    ⟨fun h => ⟨h.1, h.2.1, h.2.2⟩, fun h => ⟨h.strangers, h.waits, h.tick⟩⟩

instance (s : Simulation σ) (n : Nat) : Decidable (s.InCalendar n) :=
  decidable_of_iff ((∀ p ∈ s.roster.toList, s.clock.year.Apart p.birthYear) ∧
    ∀ m < n, (s.after m).StaysInCalendar)
    ⟨fun h => ⟨h.1, h.2⟩, fun h => ⟨h.founders, h.steps⟩⟩

variable {k : Int} {stop : Year}

/-! ## The families of a year -/

omit [Dice σ] in
@[simp] theorem year_shift (s : Simulation σ) :
    (s.shift k stop).clock.year = s.clock.year.shift k := rfl

theorem passMarket_shift (s : Simulation σ) :
    (s.shift k stop).passMarket = s.passMarket.shift k stop := by
  have hupdate := Market.update_shift k s.market s.clock.year s.settings s.roster s.dice
  unfold passMarket shift
  dsimp only
  rw [hupdate]

theorem strangers_shift (s : Simulation σ) :
    (s.shift k stop).strangers = s.strangers.map (Person.shift k) := by
  unfold strangers
  rw [passMarket_shift]
  show ((s.passMarket.roster.shift k).toList).drop (s.roster.shift k).size = _
  rw [Roster.toList_shift, Roster.size_shift, List.map_drop]

/-- A stranger brings a year of birth, and no other year comes to the roster. -/
theorem forall_years_passMarket {P : Year → Prop} {s : Simulation σ}
    (hr : ∀ y ∈ s.roster.years, P y) (hnew : ∀ p ∈ s.strangers, P p.birthYear) :
    ∀ y ∈ s.passMarket.roster.years, P y := by
  have hroster : s.passMarket.roster =
      (s.market.update s.settings s.clock.year s.roster s.dice).2.1 := rfl
  unfold strangers at hnew
  rw [hroster] at hnew ⊢
  rcases s.market.update_cases s.settings s.clock.year s.roster s.dice with
    ⟨dice, hsame⟩ | ⟨arrival, dice, hcame⟩
  · rw [hsame]
    exact hr
  · rw [hcame] at hnew ⊢
    refine Roster.forall_years_spawn hr (hnew (arrival.person s.roster.nextId) ?_)
    show _ ∈ (s.roster.persons.push (arrival.person s.roster.nextId)).toList.drop
      s.roster.persons.size
    rw [Array.toList_push, ← Array.length_toList, List.drop_left]
    exact List.mem_singleton_self _

section Houses

variable (settings : FamilySettings) {year : Year}

/-- The year of dynasties writes down no year but its own. -/
theorem forall_years_passHouses {P : Year → Prop} (hyear : P year) (ds : List Dynasty) {r : Roster}
    (hr : ∀ y ∈ r.years, P y) (m : Market) (dice : σ) :
    ∀ y ∈ (passHouses settings year ds r m dice).2.2.1.years, P y := by
  induction ds generalizing r m dice with
  | nil => exact hr
  | cons d rest ih =>
    let h : House σ := { dynasty := d, roster := r, market := m, dice }
    have hfirst := House.forall_years_passYear (s := settings) hyear (h := h) hr
    exact ih hfirst (h.passYear settings year).2.market (h.passYear settings year).2.dice

/-- The year of dynasties is the same in the other calendar. -/
theorem passHouses_shift (hyear : year.Moves k) (ds : List Dynasty) {r : Roster}
    (hr : ∀ y ∈ r.years, y.Moves k) (m : Market) (dice : σ) :
    passHouses settings (year.shift k) ds (r.shift k) m dice =
      let (events, dynasties, roster, market, dice) := passHouses settings year ds r m dice
      (events.map (FamilyEvent.shift k), dynasties, roster.shift k, market, dice) := by
  induction ds generalizing r m dice with
  | nil => rfl
  | cons d rest ih =>
    let h : House σ := { dynasty := d, roster := r, market := m, dice }
    have hshift := House.passYear_shift settings hyear (h := h) hr
    have hfirst := House.forall_years_passYear (s := settings) hyear (h := h) hr
    have hrest := ih hfirst (h.passYear settings year).2.market (h.passYear settings year).2.dice
    unfold passHouses
    rw [show (⟨d, r.shift k, m, dice⟩ : House σ) = h.shift k from rfl, hshift]
    dsimp only [House.shift]
    rw [hrest]
    dsimp only
    rw [List.map_append]

end Houses

/-- The families of a simulation, too. -/
theorem passDynasties_shift {s : Simulation σ} (hyear : s.clock.year.Moves k)
    (hr : ∀ y ∈ s.roster.years, y.Moves k) :
    (s.shift k stop).passDynasties = s.passDynasties.shift k stop := by
  have hhouses := passHouses_shift s.settings hyear s.dynasties hr s.market s.dice
  unfold passDynasties shift
  dsimp only
  rw [hhouses]
  simp [YearBook.append, YearBook.shift, Entry.shift, Function.comp_def]

/-! ## A step -/

/-- A state that can be told in the other calendar: it is sound on either side, its catalog does not
ask for the year, and both calendars have its years. -/
structure Shiftable (k : Int) (stop : Year) (s : Simulation σ) : Prop where
  sound : s.Sound
  sound_shift : (s.shift k stop).Sound
  onTime : s.OnTime
  timeless : s.rules.catalog.Timeless
  moves : ∀ y ∈ s.years, y.Moves k

/-- The waits that begin in a step end within the calendar. -/
theorem StaysInCalendar.course {s : Simulation σ} (hstays : s.StaysInCalendar) (h : s.Sound)
    (htime : s.OnTime) : ∀ o ∈ s.course.fired, o.InCalendar s.rules.catalog := by
  have hstep := step_eq h.blank (h.fault_course htime)
  have hwaits := hstays.waits _ (congrArg (fun next => next.1.toOption) hstep)
  rw [entries_passDynasties h.blank, Report.occurrences_mk] at hwaits
  exact hwaits

namespace Shiftable

variable {s : Simulation σ} (h : s.Shiftable k stop) (hstays : s.StaysInCalendar)
  (hstays' : (s.shift k stop).StaysInCalendar)

include h

omit [Dice σ] in
theorem moves_year : s.clock.year.Moves k := h.moves _ List.mem_cons_self

omit [Dice σ] in
theorem moves_world : ∀ y ∈ s.world.years, y.Moves k := fun y hy =>
  h.moves y (List.mem_cons_of_mem _ (List.mem_append_left _ hy))

omit [Dice σ] in
theorem moves_roster : ∀ y ∈ s.roster.years, y.Moves k := fun y hy =>
  h.moves y (List.mem_cons_of_mem _ (List.mem_append_right _ hy))

omit [Dice σ] in
theorem onTime_shift : (s.shift k stop).OnTime :=
  (Year.shift_le_shift (h.moves_world _ List.mem_cons_self) h.moves_year).2 h.onTime

include hstays hstays'

/-- A stranger is of the same age in both calendars, so both have the year of birth. -/
theorem moves_market : ∀ y ∈ s.passMarket.roster.years, y.Moves k := by
  refine forall_years_passMarket h.moves_roster fun p hp => ?_
  have hp' : p.shift k ∈ (s.shift k stop).strangers := by
    rw [strangers_shift]
    exact List.mem_map_of_mem hp
  have hage := hstays'.strangers _ hp'
  rw [year_shift, Person.birthYear_shift] at hage
  exact h.moves_year.of_apart (hstays.strangers p hp) hage

/-- The year of the families is the same. -/
theorem families : (s.shift k stop).passMarket.passDynasties =
    s.passMarket.passDynasties.shift k stop := by
  rw [passMarket_shift]
  exact passDynasties_shift h.moves_year (h.moves_market hstays hstays')

/-- So is that of the world. -/
theorem course : (s.shift k stop).course = s.course.shift k := by
  have hwaits := hstays.course h.sound h.onTime
  have hwaits' := hstays'.course h.sound_shift h.onTime_shift
  unfold Simulation.course at hwaits' ⊢
  rw [h.families hstays hstays'] at hwaits' ⊢
  exact Rules.passYear_shift h.sound.loaded h.timeless h.onTime h.moves_year h.moves_world _ hwaits
    hwaits'

/-- Both calendars have the years that a step leaves. -/
theorem moves_step : ∀ y ∈ s.step.2.years, y.Moves k := by
  have hfault := h.sound.fault_course h.onTime
  have hwaits := hstays.course h.sound h.onTime
  have hwaits' : ∀ o ∈ s.course.fired, (o.shift k).InCalendar s.rules.catalog := by
    have hshifted := hstays'.course h.sound_shift h.onTime_shift
    rw [h.course hstays hstays'] at hshifted
    exact fun o ho => hshifted _ (List.mem_map_of_mem ho)
  rw [step_eq h.sound.blank hfault]
  refine List.forall_mem_cons.2 ⟨h.moves_year.succ hstays.tick hstays'.tick, ?_⟩
  refine List.forall_mem_append.2 ⟨?_, ?_⟩
  · exact Rules.moves_years_passYear h.sound.loaded h.moves_year h.moves_world hfault hwaits hwaits'
  · exact forall_years_passHouses s.settings h.moves_year s.dynasties
      (h.moves_market hstays hstays') _ _

/-- A step is the same in the other calendar, and both calendars have the years that it tells. -/
theorem step : ∃ r, s.step.1 = .ok r ∧
    (s.shift k stop).step = (.ok (r.shift k), s.step.2.shift k stop) ∧
    ∀ y ∈ r.years, y.Moves k := by
  have hfault := h.sound.fault_course h.onTime
  have hstep := step_eq h.sound.blank hfault
  have hstep' := step_eq h.sound_shift.blank (h.sound_shift.fault_course h.onTime_shift)
  refine ⟨_, congrArg Prod.fst hstep, ?_, ?_⟩
  · have htick : (s.shift k stop).clock.tick = { year := s.clock.tick.year.shift k, stop } :=
      congrArg (Clock.mk · stop) (Year.shift_succ k s.clock.year).symm
    rw [hstep', h.families hstays hstays', h.course hstays hstays', hstep, htick]
    refine Prod.ext (congrArg (fun es => Except.ok (Report.mk _ es)) ?_) rfl
    show _ ++ (s.course.fired.map (Occurrence.shift k)).map Entry.world = List.map (Entry.shift k) _
    rw [List.map_append, List.map_map, List.map_map]
    rfl
  · refine List.forall_mem_cons.2 ⟨h.moves_year, List.forall_mem_flatMap.2 ?_⟩
    rw [entries_passDynasties h.sound.blank]
    refine List.forall_mem_append.2 ⟨List.forall_mem_map.2 fun e he => ?_, ?_⟩
    · refine List.forall_mem_singleton.2 ?_
      rw [year_of_mem_chapters he]
      exact h.moves_year
    · exact List.forall_mem_map.2 (Rules.moves_fired_passYear h.onTime h.moves_year h.moves_world _)

/-- The next state can be told in the other calendar, too. -/
theorem next : s.step.2.Shiftable k stop := by
  obtain ⟨r, -, hstep, -⟩ := h.step hstays hstays'
  refine ⟨h.sound.step, ?_, h.sound.onTime_succ h.onTime hstays.tick, ?_,
    h.moves_step hstays hstays'⟩
  · have hnext := h.sound_shift.step
    rw [hstep] at hnext
    exact hnext
  · rw [rules_step]
    exact h.timeless

end Shiftable

/-! ## Runs -/

/-- Steps in a row are the same in the other calendar. -/
theorem Shiftable.after {s : Simulation σ} (h : s.Shiftable k stop) {n : Nat}
    (hstays : ∀ m < n, (s.after m).StaysInCalendar)
    (hstays' : ∀ m < n, ((s.shift k stop).after m).StaysInCalendar) :
    (s.shift k stop).after n = (s.after n).shift k stop ∧ (s.after n).Shiftable k stop ∧
    (s.shift k stop).told n = (s.told n).map (Report.shift k) ∧
    ∀ r ∈ s.told n, ∀ y ∈ r.years, y.Moves k := by
  induction n with
  | zero => exact ⟨rfl, h, rfl, List.forall_mem_nil _⟩
  | succ n ih =>
    obtain ⟨hstate, hnow, htold, hreports⟩ :=
      ih (fun m hm => hstays m (Nat.lt_succ_of_lt hm)) fun m hm => hstays' m (Nat.lt_succ_of_lt hm)
    have hstay := hstays n (Nat.lt_succ_self n)
    have hstay' := hstays' n (Nat.lt_succ_self n)
    rw [hstate] at hstay'
    obtain ⟨r, hreport, hstep, hr⟩ := hnow.step hstay hstay'
    refine ⟨?_, hnow.next hstay hstay', ?_, ?_⟩
    · rw [after_succ, hstate, hstep]
      rfl
    · rw [told_succ, told_succ, hstate, hstep, hreport, htold, List.map_append]
      rfl
    · rw [told_succ, hreport]
      exact List.forall_mem_append.2 ⟨hreports, List.forall_mem_singleton.2 hr⟩

/-! ## The beginning -/

/-- At the beginning all live, so the roster has the years of birth of the founders. -/
theorem forall_years_ofConfig {P : Year → Prop} (c : Config) (catalog : Catalog) (dice : σ)
    (hyear : P c.run.startYear)
    (hfounders : ∀ p ∈ (ofConfig c catalog dice).roster.toList, P p.birthYear) :
    ∀ y ∈ (ofConfig c catalog dice).years, P y := by
  have hliving : (ofConfig c catalog dice).roster.obituaries = [] :=
    ofConfig_induction (P := fun _ r => r.obituaries = [])
      (fun {_ r} _ king queen _ _ hr => (Roster.obituaries_withCouple r king queen).trans hr) rfl c
      catalog dice
  have hroster : ∀ y ∈ (ofConfig c catalog dice).roster.years, P y := by
    refine Roster.forall_years_iff.2 fun p hp => List.forall_mem_cons.2 ⟨hfounders p hp, ?_⟩
    have hdeath : p.deathYear = none := by
      simpa [Person.obituary?] using List.filterMap_eq_nil_iff.1 hliving p hp
    rw [hdeath]
    exact List.forall_mem_nil _
  refine List.forall_mem_cons.2 ⟨hyear, List.forall_mem_append.2 ⟨?_, hroster⟩⟩
  show ∀ y ∈ (World.beginning c.run.startYear).years, P y
  rw [World.years_beginning]
  exact List.forall_mem_singleton.2 hyear

/-- A simulation that begins in another year is the same one in another calendar. -/
theorem ofConfig_startingIn (c : Config) (catalog : Catalog) (dice : σ) (k : Int) :
    ofConfig (c.startingIn (c.run.startYear.shift k)) catalog dice =
      (ofConfig c catalog dice).shift k
        (ofConfig (c.startingIn (c.run.startYear.shift k)) catalog dice).clock.stop := by
  have hfounded := Dynasty.foundAll_shift c.run.startYear c.family.ageing.initialHealth
    c.run.dynasties .empty dice (k := k)
  have hworld := World.beginning_shift k c.run.startYear
  have hempty : Roster.empty.shift k = .empty := congrArg Roster.mk Array.map_empty
  rw [hempty] at hfounded
  unfold ofConfig Config.startingIn shift
  dsimp only
  rw [hfounded, hworld]
  rfl

/-- The beginning can be told in the other calendar when it has the first year and the founders are
of the same ages in both. -/
theorem shiftable_ofConfig {catalog : Catalog} (hcat : catalog.Loaded)
    (htimeless : catalog.Timeless) (c : Config) (hyear : c.run.startYear.Moves k) (dice : σ)
    (hsound : ((ofConfig c catalog dice).shift k stop).Sound)
    (hages : ∀ p ∈ (ofConfig c catalog dice).roster.toList, c.run.startYear.Apart p.birthYear)
    (hages' : ∀ p ∈ ((ofConfig c catalog dice).shift k stop).roster.toList,
      (c.run.startYear.shift k).Apart p.birthYear) :
    (ofConfig c catalog dice).Shiftable k stop := by
  have hfounders : ∀ p ∈ (ofConfig c catalog dice).roster.toList, p.birthYear.Moves k := by
    intro p hp
    have hp' : p.shift k ∈ ((ofConfig c catalog dice).shift k stop).roster.toList := by
      show p.shift k ∈ ((ofConfig c catalog dice).roster.shift k).toList
      rw [Roster.toList_shift]
      exact List.mem_map_of_mem hp
    have hage := hages' _ hp'
    rw [Person.birthYear_shift] at hage
    exact hyear.of_apart (hages p hp) hage
  exact ⟨sound_ofConfig c hcat dice, hsound, onTime_ofConfig c catalog dice, htimeless,
    forall_years_ofConfig c catalog dice hyear hfounders⟩

/-- History does not depend on where the calendar begins. Over a loaded catalog that does not ask
for the year, two configurations that are the same but for their first years, `k` years apart, go
the same way as long as neither run leaves the calendar: after any number of steps the state of the
one is that of the other with every year moved by `k`, the dice included, and so are the reports. No
year is lost by the move. -/
theorem history_without_origin {catalog : Catalog} (hcat : catalog.Loaded)
    (htimeless : catalog.Timeless) (c : Config)
    {start : Year} {k : Int} (hstart : start.toInt = c.run.startYear.toInt + k) (dice : σ) {n : Nat}
    (hs : (ofConfig c catalog dice).InCalendar n)
    (ht : (ofConfig (c.startingIn start) catalog dice).InCalendar n) :
    let s := ofConfig c catalog dice
    let t := ofConfig (c.startingIn start) catalog dice
    t.after n = (s.after n).shift k t.clock.stop ∧ t.told n = (s.told n).map (Report.shift k) ∧
    (∀ y ∈ (s.after n).years, (y.shift k).toInt = y.toInt + k) ∧
    ∀ r ∈ s.told n, ∀ y ∈ r.years, (y.shift k).toInt = y.toInt + k := by
  have hsame := Year.eq_shift hstart
  have hyear : c.run.startYear.Moves k := Year.moves_of_eq hstart
  subst hsame
  intro s t
  have hsound : t.Sound := sound_ofConfig _ hcat dice
  have hshift : t = s.shift k t.clock.stop := ofConfig_startingIn c catalog dice k
  change t.InCalendar n at ht
  generalize t.clock.stop = stop at hshift ⊢
  rw [hshift] at hsound ht ⊢
  have hbegin : s.Shiftable k stop :=
    shiftable_ofConfig hcat htimeless c hyear dice hsound hs.founders ht.founders
  obtain ⟨hstate, hend, htold, hreports⟩ := hbegin.after hs.steps ht.steps
  exact ⟨hstate, htold, hend.moves, hreports⟩

end Simulation

/-! ## A catalog that does not ask for the year -/

namespace Catalog

/-- A tide that comes back after two years as long as there is trade. -/
def tide : Definition where
  id := "tide"
  name := "Spring Tide"
  description := ""
  category := "seas"
  conditions := [.stat { side := .region, owner := "Coastal Regions", stat := "trade"
                         comparison := .gt, value := .number 0 }]
  effects := [.adjust { side := .region, name := "Coastal Regions" } "trade" (-5)]
  followUps := [{ event := "tide", delay := 2, chance := 1.0 }]
  followUpOnly := false
  details := {}

/-- The seas alone. -/
def tides : Catalog := { categories := [{ name := "seas", events := [tide] }] }

theorem tides_loaded : tides.Loaded := ⟨tides.document, rfl⟩

end Catalog

/-- Three years long before the calendar's zero go like three years long after it. In the last one a
tide comes back that was announced in the first. -/
theorem Simulation.history_without_origin_tides :
    let s := ofConfig {} .tides Rules.still
    let t := ofConfig (Config.startingIn {} (-1200)) .tides Rules.still
    Catalog.tides.Loaded ∧ Catalog.tides.Timeless ∧
    (-1200 : Year).toInt = (1000 : Year).toInt + -2200 ∧ s.InCalendar 3 ∧ t.InCalendar 3 ∧
    t.after 3 = (s.after 3).shift (-2200) (-1150) ∧
    t.told 3 = (s.told 3).map (Report.shift (-2200)) ∧
    (∀ y ∈ (s.after 3).years, (y.shift (-2200)).toInt = y.toInt + -2200) ∧
    (∀ r ∈ s.told 3, ∀ y ∈ r.years, (y.shift (-2200)).toInt = y.toInt + -2200) ∧
    (t.told 3).map (fun r => r.occurrences.map Occurrence.origin) =
      [[.scan], [.scan], [.delayed "tide" (-1200), .scan]] := by
  intro s t
  have htimeless : Catalog.tides.Timeless := by decide
  have hs : s.InCalendar 3 := by decide +kernel
  have ht : t.InCalendar 3 := by decide +kernel
  have hstop : t.clock.stop = -1150 := by decide +kernel
  obtain ⟨hstate, htold, hyears, hreports⟩ :=
    history_without_origin Catalog.tides_loaded htimeless {} (k := -2200) rfl Rules.still hs ht
  rw [← hstop]
  exact ⟨Catalog.tides_loaded, htimeless, rfl, hs, ht, hstate, htold, hyears, hreports,
    by decide +kernel⟩

end Annals
