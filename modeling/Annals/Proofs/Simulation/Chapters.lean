import Annals.Proofs.Simulation.Families
/-!
# Chapters

The family events of a year come in chapters, one for each dynasty in the order of founding. The
chapters of one dynasty, put together over the years, are its saga.

* `Simulation.households`: the dynasties of a year, each with what it shares with the others when
  its turn comes.
* `Simulation.chapters`, `Simulation.saga`: the events of a year and of a dynasty.
* `Simulation.families_report`: a report tells of the families what the chapters hold.
-/

namespace Annals

/-- The family events of a report. -/
def Report.families (r : Report) : List FamilyEvent :=
  r.entries.filterMap fun
    | .family e => some e
    | .world _ => none

/-- A report has world events last. -/
theorem Report.families_mk (year : Year) (families : List FamilyEvent) (fired : List Occurrence) :
    Report.families { year, entries := families.map .family ++ fired.map .world } = families := by
  simp [Report.families, List.filterMap_append, List.filterMap_map]

namespace Simulation

variable {σ : Type} [Dice σ]

/-! ## Households -/

/-- Dynasties in a row, each with what the ones before have left of roster, market and dice. -/
def houses (settings : FamilySettings) (year : Year) :
    List Dynasty → Roster → Market → σ → List (House σ)
  | [], _, _, _ => []
  | dynasty :: rest, roster, market, dice =>
    let h : House σ := { dynasty, roster, market, dice }
    let next := (h.passYear settings year).2
    h :: houses settings year rest next.roster next.market next.dice

section Houses

variable {settings : FamilySettings} {year : Year}

theorem map_dynasty_houses (ds : List Dynasty) (r : Roster) (m : Market) (dice : σ) :
    (houses settings year ds r m dice).map House.dynasty = ds := by
  induction ds generalizing r m dice with
  | nil => rfl
  | cons d rest ih => exact congrArg (d :: ·) (ih ..)

/-- A year of all dynasties, house by house. -/
theorem passHouses_eq (ds : List Dynasty) (r : Roster) (m : Market) (dice : σ) :
    (passHouses settings year ds r m dice).1 =
      (houses settings year ds r m dice).flatMap (fun h => (h.passYear settings year).1) ∧
    (passHouses settings year ds r m dice).2.1 =
      (houses settings year ds r m dice).map (fun h => (h.passYear settings year).2.dynasty) := by
  induction ds generalizing r m dice with
  | nil => exact ⟨rfl, rfl⟩
  | cons d rest ih =>
    let next := (House.passYear settings year ⟨d, r, m, dice⟩).2
    obtain ⟨hevents, hdynasties⟩ := ih next.roster next.market next.dice
    unfold passHouses houses
    exact ⟨congrArg (_ ++ ·) hevents, congrArg (next.dynasty :: ·) hdynasties⟩

end Houses

/-- The dynasties of a simulation's next year. -/
def households (s : Simulation σ) : List (House σ) :=
  houses s.settings s.clock.year s.dynasties s.passMarket.roster s.passMarket.market
    s.passMarket.dice

theorem map_dynasty_households (s : Simulation σ) : s.households.map House.dynasty = s.dynasties :=
  map_dynasty_houses ..

/-- A step takes every dynasty through its year. -/
theorem dynasties_step (s : Simulation σ) : s.step.2.dynasties =
    s.households.map fun h => (h.passYear s.settings s.clock.year).2.dynasty :=
  s.families_step.1.trans (passHouses_eq ..).2

/-! ## Chapters -/

/-- The family events of the next year, dynasty by dynasty. -/
def chapters (s : Simulation σ) : List (List FamilyEvent) :=
  s.households.map fun h => (h.passYear s.settings s.clock.year).1

/-- The events of the dynasty at a place, over a number of steps. -/
def saga (s : Simulation σ) (i : Nat) : Nat → List FamilyEvent
  | 0 => []
  | n + 1 => s.saga i n ++ ((s.after n).chapters[i]?).getD []

/-- A dynasty after a step comes from the household at its place, and so does its chapter. -/
theorem exists_household {s : Simulation σ} {i : Nat} {d : Dynasty}
    (hd : s.step.2.dynasties[i]? = some d) :
    ∃ h ∈ s.households, s.dynasties[i]? = some h.dynasty ∧
      (h.passYear s.settings s.clock.year).2.dynasty = d ∧
      s.chapters[i]? = some (h.passYear s.settings s.clock.year).1 := by
  rw [dynasties_step, List.getElem?_map] at hd
  obtain ⟨h, hh, heq⟩ := Option.map_eq_some_iff.1 hd
  refine ⟨h, List.mem_of_getElem? hh, ?_, heq, ?_⟩
  · rw [← map_dynasty_households, List.getElem?_map, hh]
    rfl
  · unfold chapters
    rw [List.getElem?_map, hh]
    rfl

/-- The families write the chapters of the year into the book. -/
theorem book_passDynasties (s : Simulation σ) :
    s.passMarket.passDynasties.book = s.book.append (s.chapters.flatten.map .family) := by
  have hevents : (passHouses s.settings s.clock.year s.dynasties s.passMarket.roster
      s.passMarket.market s.passMarket.dice).1 = s.chapters.flatten :=
    (passHouses_eq ..).1.trans List.flatMap_def
  rw [← hevents]
  rfl

/-- From a blank book, nothing else stands in it. -/
theorem entries_passDynasties {s : Simulation σ} (hblank : s.book = .blank) :
    s.passMarket.passDynasties.book.entries = s.chapters.flatten.map .family := by
  rw [book_passDynasties, hblank]
  rfl

/-- A report tells of the families what the chapters of the year hold. -/
theorem families_report {s : Simulation σ} (hblank : s.book = .blank) {report : Report}
    (hreport : s.step.1 = .ok report) : report.families = s.chapters.flatten := by
  have hbook := s.book_passDynasties
  unfold step at hreport
  generalize s.passMarket.passDynasties = m at hbook hreport
  -- The book was blank, so it holds the chapters alone when the world's year begins.
  rw [hblank] at hbook
  have hopen : m.book.fault = none := by
    rw [hbook]
    rfl
  rw [passWorld_eq hopen] at hreport
  cases hfault : (m.rules.passYear m.clock.year m.world m.dice).fault with
  | none =>
    simp only [hbook, hfault] at hreport
    cases hreport
    exact Report.families_mk ..
  | some fault =>
    simp only [hfault] at hreport
    cases hreport

/-- No book stays open after a step. -/
theorem book_step (s : Simulation σ) : s.step.2.book = .blank := by
  unfold step
  dsimp only
  split <;> rfl

theorem book_after {s : Simulation σ} (hblank : s.book = .blank) (n : Nat) :
    (s.after n).book = .blank := by
  cases n with
  | zero => exact hblank
  | succ n => exact book_step _

end Simulation

end Annals
