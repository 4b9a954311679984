import Annals.Proofs.Calendar.Shift
import Annals.Proofs.Family.Ageing
import Annals.Proofs.Simulation.Operations
import Annals.Proofs.Simulation.Whereabouts
/-!
# Years that are tried again

The world can be changed from outside between two steps, so that a step can fail over any catalog.
The clock then stays, but the families have already had their year: everyone in them has aged, and
what there was to tell of them is lost. When the step is tried again they have the year once more.

* `Simulation.called`, `Simulation.returned`: the state after a number of calls, and the reports
  that they have returned.
* `Simulation.unreported`: what the years that failed would have told of the families.
* `Simulation.year_called_eq_iff`: two calls have the same year when all calls between them failed.
* `Simulation.ages_step`: a step ages every member once and nobody else.
* `Simulation.calls_accounted`: who ages in a number of calls, and which deaths they have told.
-/

namespace Annals

/-! ## Years -/

/-- A year more is the next year. -/
theorem Year.shift_add_one (y : Year) (k : Int) : y.shift (k + 1) = y.shift k + 1 := by
  unfold shift
  rw [Int32.ofInt_add, ← Int32.add_assoc]
  rfl

/-- Two years that are fewer years away than the calendar has are the same only when they are no
years away. -/
theorem Year.shift_eq_shift {y : Year} {m n : Nat} (hle : m ≤ n) (hlt : n - m < 2 ^ 32) :
    y.shift n = y.shift m ↔ n = m := by
  refine ⟨fun h => ?_, fun h => by rw [h]⟩
  have hwords : Int32.ofInt n = Int32.ofInt m := (Int32.add_right_inj y).1 h
  have hmod : (n : Int).bmod (2 ^ 32) = (m : Int).bmod (2 ^ 32) := by
    have htoInt := congrArg Int32.toInt hwords
    rwa [Int32.toInt_ofInt, Int32.toInt_ofInt] at htoInt
  rw [Int.bmod_eq_bmod_iff_bmod_sub_eq_zero] at hmod
  obtain ⟨c, hc⟩ := Int.dvd_of_bmod_eq_zero hmod
  omega

namespace Simulation

variable {σ : Type} [Dice σ] {s : Simulation σ}

/-! ## Ageing in a step -/

section Houses

variable {r : Roster} {x : PersonId} {q : Person}

/-- In a year of dynasties nobody outside the families ages. -/
theorem exists_passHouses_of_not_mem (settings : FamilySettings) (year : Year)
    (ds : List Dynasty) (m : Market) (dice : σ)
    (hq : r.get? x = some q) (hx : x ∉ ds.flatMap Dynasty.family) :
    ∃ q', (passHouses settings year ds r m dice).2.2.1.get? x = some q' ∧
      q'.health = q.health := by
  induction ds generalizing r m dice q with
  | nil => exact ⟨q, hq, rfl⟩
  | cons d rest ih =>
    rw [List.flatMap_cons, List.mem_append, not_or] at hx
    obtain ⟨q', hq', hhealth, -⟩ :=
      House.exists_passMembers_of_not_mem settings year (h := ⟨d, r, m, dice⟩) hq hx.1
    obtain ⟨q'', hq'', hhealth'⟩ := ih _ _ hq' hx.2
    exact ⟨q'', hq'', hhealth'.trans hhealth⟩

/-- When nobody is twice in the families, every living member of one ages once. -/
theorem healthOf_passHouses_of_mem (settings : FamilySettings) (year : Year) (ds : List Dynasty)
    (m : Market) (dice : σ)
    (honce : (ds.flatMap Dynasty.family).Nodup) (hx : x ∈ ds.flatMap Dynasty.family)
    (hq : r.get? x = some q) (halive : q.isAlive = true) :
    ∃ loss : σ, (passHouses settings year ds r m dice).2.2.1.healthOf x =
      some (q.health - House.drawnLoss settings.ageing loss) := by
  induction ds generalizing r m dice q with
  | nil => cases hx
  | cons d rest ih =>
    let h : House σ := ⟨d, r, m, dice⟩
    rw [List.flatMap_cons] at honce hx
    obtain ⟨hown, hrest, hapart⟩ := List.nodup_append.1 honce
    by_cases hmember : x ∈ d.family
    · -- The year of the own house; the years behind it are those of others.
      obtain ⟨loss, hhealth⟩ :=
        House.healthOf_passMembers_of_mem settings year (h := h) hown hmember hq halive
      obtain ⟨q', hq', hyear⟩ := Option.map_eq_some_iff.1 hhealth
      obtain ⟨q'', hq'', hhealth'⟩ := exists_passHouses_of_not_mem settings year rest
        (h.passYear settings year).2.market (h.passYear settings year).2.dice hq'
        fun hlater => hapart x hmember x hlater rfl
      exact ⟨loss, (Roster.healthOf_of_get? hq'').trans (congrArg some (hhealth'.trans hyear))⟩
    · have hlater := (List.mem_append.1 hx).resolve_left hmember
      obtain ⟨q', hq', hhealth, hlife⟩ :=
        House.exists_passMembers_of_not_mem settings year (h := h) hq hmember
      rw [← hhealth]
      exact ih _ _ hrest hlater hq' (hlife halive)

/-- Whoever is in a family and survives the year is in a family after it. -/
theorem stays_passHouses (settings : FamilySettings) (year : Year) (ds : List Dynasty)
    (m : Market) (dice : σ)
    (hx : x ∈ ds.flatMap Dynasty.family) (hq : r.get? x = some q)
    (halive : (passHouses settings year ds r m dice).2.2.1.isAlive x = true) :
    x ∈ (passHouses settings year ds r m dice).2.1.flatMap Dynasty.family := by
  induction ds generalizing r m dice q with
  | nil => cases hx
  | cons d rest ih =>
    let h : House σ := ⟨d, r, m, dice⟩
    obtain ⟨q', hq', -⟩ := (House.continues_passMembers settings year d.family h).stays hq
    show x ∈ (_ :: _).flatMap Dynasty.family
    rw [List.flatMap_cons]
    rcases List.mem_append.1 hx with hmember | hlater
    · -- Who lives at the end has lived after the year of the own house.
      have hnext := (continues_passHouses settings year rest _ _ _).isAlive
        (Roster.genderOf_of_get? hq') halive
      exact List.mem_append_left _
        (House.stays_passMembers settings year d.family (fun _ => hmember) hnext)
    · exact List.mem_append_right _ (ih _ _ hlater hq' halive)

end Houses

/-- The ids of all members of families. -/
def members (s : Simulation σ) : List PersonId := s.dynasties.flatMap Dynasty.family

/-- A step in which nobody is twice in the families: every living member of one ages, and is still a
member after it if alive; nobody else ages. -/
theorem ages_step {x : PersonId} {q : Person} (honce : s.members.Nodup)
    (halive : ∀ y ∈ s.members, s.roster.isAlive y = true) (hq : s.roster.get? x = some q) :
    (x ∈ s.members →
      (∃ loss : σ, s.step.2.roster.healthOf x =
        some (q.health - House.drawnLoss s.settings.ageing loss)) ∧
      (s.step.2.roster.isAlive x = true → x ∈ s.step.2.members)) ∧
    (x ∉ s.members → s.step.2.roster.healthOf x = some q.health) := by
  obtain ⟨hdynasties, hroster, -, -⟩ := s.families_step
  -- Nobody ages on the market.
  have hmarket : s.passMarket.roster.get? x = some q := by
    unfold passMarket
    rcases s.market.update_cases s.settings s.clock.year s.roster s.dice with
      ⟨dice', heq⟩ | ⟨arrival, dice', heq⟩
    · rw [heq]
      exact hq
    · rw [heq]
      exact Roster.get?_spawn_of_some hq arrival
  unfold members at *
  rw [hdynasties, hroster]
  refine ⟨fun hx => ⟨?_, fun hlives => ?_⟩, fun hx => ?_⟩
  · have hliving := (Roster.isAlive_of_get? hq).symm.trans (halive x hx)
    exact healthOf_passHouses_of_mem _ _ s.dynasties _ _ honce hx hmarket hliving
  · exact stays_passHouses _ _ s.dynasties _ _ hx hmarket hlives
  · obtain ⟨q', hq', hhealth⟩ := exists_passHouses_of_not_mem s.settings s.clock.year s.dynasties
      s.passMarket.market s.passMarket.dice hmarket hx
    exact (Roster.healthOf_of_get? hq').trans (congrArg some hhealth)

/-! ## Calls -/

/-- A state whose world has been changed from outside. -/
def edited (s : Simulation σ) (change : World → World) : Simulation σ :=
  { s with world := change s.world }

/-- The state after `n` calls of a step, before each of which the world has been changed. -/
def called (s : Simulation σ) (changes : Nat → World → World) : Nat → Simulation σ
  | 0 => s
  | n + 1 => ((s.called changes n).edited (changes n)).step.2

/-- What a call returns. -/
def result (s : Simulation σ) (changes : Nat → World → World) (n : Nat) :
    Except CourseFault Report :=
  ((s.called changes n).edited (changes n)).step.1

/-- The reports that the first `n` calls have returned. -/
def returned (s : Simulation σ) (changes : Nat → World → World) : Nat → List Report
  | 0 => []
  | n + 1 => s.returned changes n ++ (s.result changes n).toOption.toList

/-- The family events of the calls that have failed among the first `n`: no report has them. -/
def unreported (s : Simulation σ) (changes : Nat → World → World) : Nat → List FamilyEvent
  | 0 => []
  | n + 1 => s.unreported changes n ++
      if (s.result changes n).isOk then [] else (s.called changes n).chapters.flatten

section Calls

variable (changes : Nat → World → World)

@[simp] theorem returned_succ (n : Nat) : s.returned changes (n + 1) =
    s.returned changes n ++ (s.result changes n).toOption.toList := rfl

@[simp] theorem unreported_succ (n : Nat) : s.unreported changes (n + 1) =
    s.unreported changes n ++
      if (s.result changes n).isOk then [] else (s.called changes n).chapters.flatten := rfl

theorem book_called (hblank : s.book = .blank) (n : Nat) : (s.called changes n).book = .blank := by
  cases n with
  | zero => exact hblank
  | succ n => exact book_step _

theorem settings_called (s : Simulation σ) (n : Nat) :
    (s.called changes n).settings = s.settings := by
  induction n with
  | zero => rfl
  | succ n ih => exact (families_step _).2.2.2.trans ih

theorem continues_called (s : Simulation σ) {k n : Nat} (h : k ≤ n) :
    (s.called changes k).roster.Continues (s.called changes n).roster := by
  induction n, h using Nat.le_induction with
  | base => exact .refl _
  | succ n _ ih => exact ih.trans (continues_step ((s.called changes n).edited (changes n)))

/-- The year of the clock is later by one for each call that has returned a report. -/
theorem year_called (hblank : s.book = .blank) (n : Nat) :
    (s.called changes n).clock.year = s.clock.year.shift (s.returned changes n).length := by
  induction n with
  | zero => exact (Int32.add_zero _).symm
  | succ n ih =>
    have hview := stepped (s := (s.called changes n).edited (changes n))
      (book_called changes hblank n)
    rw [returned_succ]
    unfold called result
    generalize ((s.called changes n).edited (changes n)).step.1 = result,
      ((s.called changes n).edited (changes n)).step.2 = next at hview ⊢
    rw [List.length_append]
    cases hview with
    | told families dice hfault hworld hrules hclock hbook =>
      rw [hclock]
      show (s.called changes n).clock.year + 1 = _
      rw [ih, ← Year.shift_add_one]
      rfl
    | broken fault dice hfault hworld hrules hclock hbook =>
      rw [hclock]
      exact ih

/-- No call takes a report back, and each returns at most one. None is returned only when all calls
fail. -/
theorem length_returned (s : Simulation σ) {j k : Nat} (h : j ≤ k) :
    (s.returned changes j).length ≤ (s.returned changes k).length ∧
    (s.returned changes k).length ≤ (s.returned changes j).length + (k - j) ∧
    ((s.returned changes k).length = (s.returned changes j).length ↔
      ∀ i, j ≤ i → i < k → (s.result changes i).isOk = false) := by
  induction k, h using Nat.le_induction with
  | base =>
    have hnone : ∀ i, j ≤ i → i < j → (s.result changes i).isOk = false :=
      fun i hi hlt => absurd hlt (Nat.not_lt.2 hi)
    exact ⟨Nat.le_refl _, Nat.le_add_right .., fun _ => hnone, fun _ => rfl⟩
  | succ k h ih =>
    obtain ⟨hle, hbound, hfailed⟩ := ih
    have hsplit : (∀ i, j ≤ i → i < k + 1 → (s.result changes i).isOk = false) ↔
        (∀ i, j ≤ i → i < k → (s.result changes i).isOk = false) ∧
          (s.result changes k).isOk = false := by
      refine ⟨fun hall => ⟨fun i hi hlt => hall i hi (Nat.lt_succ_of_lt hlt),
        hall k h (Nat.lt_succ_self k)⟩, fun hall i hi hlt => ?_⟩
      rcases Nat.lt_succ_iff_lt_or_eq.1 hlt with hbefore | rfl
      · exact hall.1 i hi hbefore
      · exact hall.2
    rw [hsplit, ← hfailed, returned_succ, List.length_append]
    -- The last call has returned a report or has failed.
    cases s.result changes k with
    | ok report =>
      have hone : (.ok report : Except CourseFault Report).toOption.toList.length = 1 := rfl
      rw [hone]
      refine ⟨by omega, by omega, fun heq => by omega, fun hboth => ?_⟩
      cases hboth.2
    | error fault =>
      have hnone : (.error fault : Except CourseFault Report).toOption.toList.length = 0 := rfl
      rw [hnone]
      exact ⟨hle, by omega, fun heq => ⟨heq, rfl⟩, fun hboth => hboth.1⟩

/-- Fewer calls than the calendar has years: the clock has the same year before two of them exactly
when all calls between have failed. -/
theorem year_called_eq_iff (hblank : s.book = .blank) {j k : Nat} (h : j ≤ k)
    (hfew : k - j < 2 ^ 32) :
    (s.called changes k).clock.year = (s.called changes j).clock.year ↔
      ∀ i, j ≤ i → i < k → (s.result changes i).isOk = false := by
  obtain ⟨hle, hbound, hfailed⟩ := s.length_returned changes h
  rw [year_called changes hblank, year_called changes hblank, Year.shift_eq_shift hle (by omega)]
  exact hfailed

/-- A call adds what the year would tell of the families to the reports or to what is lost. -/
theorem perm_told_succ (hblank : s.book = .blank) (n : Nat) :
    ((s.returned changes n).flatMap Report.families ++ s.unreported changes n ++
      (s.called changes n).chapters.flatten).Perm
        ((s.returned changes (n + 1)).flatMap Report.families ++
          s.unreported changes (n + 1)) := by
  have hreport : ∀ report, s.result changes n = .ok report →
      report.families = (s.called changes n).chapters.flatten := fun report hresult =>
    families_report (s := (s.called changes n).edited (changes n)) (book_called changes hblank n)
      hresult
  rw [returned_succ, unreported_succ]
  generalize (s.called changes n).chapters.flatten = chapter at hreport ⊢
  cases hresult : s.result changes n with
  | ok report =>
    have hlast : (s.returned changes n ++ [report]).flatMap Report.families =
        (s.returned changes n).flatMap Report.families ++ chapter := by
      rw [List.flatMap_append, List.flatMap_singleton, hreport report hresult]
    show List.Perm _ ((s.returned changes n ++ [report]).flatMap Report.families ++
      (s.unreported changes n ++ []))
    rw [hlast, List.append_nil, List.append_assoc, List.append_assoc]
    exact List.perm_append_comm.append_left _
  | error fault =>
    show List.Perm _ ((s.returned changes n ++ []).flatMap Report.families ++
      (s.unreported changes n ++ chapter))
    rw [List.append_nil, List.append_assoc]

/-- Nothing is lost as long as no call fails. -/
theorem unreported_eq_nil {n : Nat} (hok : ∀ k < n, (s.result changes k).isOk = true) :
    s.unreported changes n = [] := by
  induction n with
  | zero => rfl
  | succ n ih =>
    rw [unreported_succ, hok n (Nat.lt_succ_self n), if_pos rfl, List.append_nil]
    exact ih fun k hk => hok k (Nat.lt_succ_of_lt hk)

/-- The sagas after a number of calls keep the laws of sagas, and hold what the reports tell of the
families together with what the failed years would have told. -/
theorem exists_sagas_called {P : List ToldDynasty → Nat → Roster → Market → Prop}
    (law : SagaLaw σ P) (c : Config) (catalog : Catalog) (dice : σ) (n : Nat) :
    let s := ofConfig c catalog dice
    ∃ ds k, ds.map Prod.fst = (s.called changes n).dynasties ∧
      P ds k (s.called changes n).roster (s.called changes n).market ∧
      (allEvents ds).Perm
        ((s.returned changes n).flatMap Report.families ++ s.unreported changes n) := by
  intro s
  induction n with
  | zero =>
    refine ⟨s.sagas 0, 0, s.map_fst_sagas 0, law.ofConfig c catalog dice, .of_eq ?_⟩
    exact allEvents_sagas_zero s
  | succ n ih =>
    obtain ⟨ds, k, hds, hP, htold⟩ := ih
    let t := (s.called changes n).edited (changes n)
    have hlength : ds.length = t.households.length := by
      rw [← List.length_map Prod.fst, hds, ← List.length_map House.dynasty, map_dynasty_households]
      rfl
    refine ⟨_, _, map_fst_tell hds, law.step (s := t) hds hP, ?_⟩
    refine (allEvents_tell ds t.households hlength).trans ((htold.append_right _).trans ?_)
    exact perm_told_succ changes rfl n

/-- Whatever is done to the world between calls of a step, every member of a family ages once in
each call and nobody else does, whether the call fails or not; whoever survives is a member in the
next call. Two calls have the same year exactly when all calls from the one to the other failed, so
the survivors of a failed call age again in its year. The dead are those of whom the reports tell
and those of whom the failed calls would have told; so every death is told exactly when there are
none of the latter. When no call fails, all calls have different years and every death is told. -/
theorem calls_accounted (c : Config) (catalog : Catalog) (dice : σ) (changes : Nat → World → World)
    (n : Nat) :
    let s := ofConfig c catalog dice
    (∀ j k, j ≤ k → k - j < 2 ^ 32 →
      ((s.called changes k).clock.year = (s.called changes j).clock.year ↔
        ∀ i, j ≤ i → i < k → (s.result changes i).isOk = false)) ∧
    ((s.called changes n).roster.size ≤ 2 ^ 32 → ∀ k < n,
      (s.called changes k).members.Nodup ∧
      (∀ x ∈ (s.called changes k).members, (s.called changes k).roster.isAlive x = true) ∧
      ∀ x q, (s.called changes k).roster.get? x = some q →
        (x ∈ (s.called changes k).members →
          (∃ loss : σ, (s.called changes (k + 1)).roster.healthOf x =
            some (q.health - House.drawnLoss c.family.ageing loss)) ∧
          ((s.called changes (k + 1)).roster.isAlive x = true →
            x ∈ (s.called changes (k + 1)).members)) ∧
        (x ∉ (s.called changes k).members →
          (s.called changes (k + 1)).roster.healthOf x = some q.health)) ∧
    (s.called changes n).roster.obituaries.Perm
      (((s.returned changes n).flatMap Report.families ++
        s.unreported changes n).filterMap FamilyEvent.obituary?) ∧
    ((s.called changes n).roster.obituaries.Perm
        (((s.returned changes n).flatMap Report.families).filterMap FamilyEvent.obituary?) ↔
      (s.unreported changes n).filterMap FamilyEvent.obituary? = []) ∧
    ((∀ k < n, (s.result changes k).isOk = true) →
      (n ≤ 2 ^ 32 → ∀ j < n, ∀ k < n,
        (s.called changes k).clock.year = (s.called changes j).clock.year → k = j) ∧
      (s.called changes n).roster.obituaries.Perm
        (((s.returned changes n).flatMap Report.families).filterMap FamilyEvent.obituary?)) := by
  intro s
  have hyears : ∀ j k, j ≤ k → k - j < 2 ^ 32 →
      ((s.called changes k).clock.year = (s.called changes j).clock.year ↔
        ∀ i, j ≤ i → i < k → (s.result changes i).isOk = false) :=
    fun j k hle hfew => year_called_eq_iff changes rfl hle hfew
  have hdead : (s.called changes n).roster.obituaries.Perm
      (((s.returned changes n).flatMap Report.families ++
        s.unreported changes n).filterMap FamilyEvent.obituary?) := by
    obtain ⟨ds, arrivals, -, hcensus, htold⟩ :=
      exists_sagas_called changes (census_law σ) c catalog dice n
    exact hcensus.recorded.dead.trans (htold.filterMap FamilyEvent.obituary?)
  have htold : (s.called changes n).roster.obituaries.Perm
      (((s.returned changes n).flatMap Report.families).filterMap FamilyEvent.obituary?) ↔
        (s.unreported changes n).filterMap FamilyEvent.obituary? = [] := by
    rw [List.filterMap_append] at hdead
    constructor
    · intro hreported
      have hlength := hreported.length_eq.symm.trans hdead.length_eq
      rw [List.length_append] at hlength
      exact List.length_eq_zero_iff.1 (by omega)
    · intro hnone
      rw [hnone, List.append_nil] at hdead
      exact hdead
  refine ⟨hyears, fun hids k hk => ?_, hdead, htold, fun hok => ⟨fun hfew => ?_, htold.2 ?_⟩⟩
  · have hbefore := Nat.le_trans (continues_called changes s (Nat.le_of_lt hk)).size_le hids
    obtain ⟨ds, arrivals, hds, hcensus, -⟩ :=
      exists_sagas_called changes (census_law σ) c catalog dice k
    have honce := hcensus.nodup_families hbefore
    have halive := fun x => hcensus.isAlive_of_mem_families hbefore (x := x)
    rw [hds] at honce halive
    refine ⟨honce, halive, fun x q hq => ?_⟩
    have hages := ages_step (s := (s.called changes k).edited (changes k)) honce halive hq
    rw [show ((s.called changes k).edited (changes k)).settings.ageing = c.family.ageing from
      congrArg FamilySettings.ageing (settings_called changes s k)] at hages
    exact hages
  · -- A later call of the same year would have had only failed calls before it.
    have hdiffer : ∀ j k, j < k → k < n →
        (s.called changes k).clock.year ≠ (s.called changes j).clock.year := by
      intro j k hlt hk heq
      have hfailed := (hyears j k (Nat.le_of_lt hlt) (by omega)).1 heq j (Nat.le_refl j) hlt
      rw [hok j (Nat.lt_trans hlt hk)] at hfailed
      cases hfailed
    intro j hj k hk heq
    rcases Nat.lt_trichotomy j k with hlt | hsame | hlt
    · exact absurd heq (hdiffer j k hlt hk)
    · exact hsame.symm
    · exact absurd heq.symm (hdiffer k j hlt hj)
  · rw [unreported_eq_nil changes hok]
    rfl

end Calls

/-- Puts an event that no catalog has into the queue before the first call. -/
def haunting : Nat → World → World
  | 0, world => world.schedule
    { event := "ghost", due := 1000, chance := 1.0, category := "omens", scheduledBy := "haunting"
      scheduledIn := 999 }
  | _ + 1, world => world

/-- A configuration in which everybody loses the same health every year. -/
def wearing : Config :=
  { family :=
    { ageing := { healthLossMin := 5, healthLossMax := 5 }
      marriage := { newCandidateChance := 0 }
      childbirth := { chance := 0 } } }

/-- A configuration in which nobody survives a year. -/
def fleeting : Config :=
  { family :=
    { ageing := { maxBaseAge := 0, maxAgeBonus := 0 }
      marriage := { newCandidateChance := 0 }
      childbirth := { chance := 0 } } }

theorem calls_accounted_wearing :
    let s := ofConfig wearing .empty Rules.still
    let calm : Nat → World → World := fun _ world => world
    (s.result haunting 0).isOk = false ∧
    (s.called haunting 1).clock.year = (s.called haunting 0).clock.year ∧
    (s.called haunting 2).roster.size ≤ 2 ^ 32 ∧
    (∃ q loss, (s.called haunting 1).roster.get? ⟨0⟩ = some q ∧
      (s.called haunting 2).roster.healthOf ⟨0⟩ =
        some (q.health - House.drawnLoss (σ := Generator) wearing.family.ageing loss)) ∧
    ⟨0⟩ ∈ (s.called haunting 2).members ∧
    (∀ k < 2, (s.result calm k).isOk = true) ∧
    (s.called calm 1).clock.year ≠ (s.called calm 0).clock.year ∧
    (s.called calm 2).roster.obituaries.Perm
      (((s.returned calm 2).flatMap Report.families).filterMap FamilyEvent.obituary?) := by
  have hcalls := calls_accounted wearing .empty Rules.still haunting 2
  have hcalm := calls_accounted wearing .empty Rules.still (fun _ world => world) 2
  have hfacts : let s := ofConfig wearing .empty Rules.still
      (s.result haunting 0).isOk = false ∧ (s.called haunting 2).roster.size ≤ 2 ^ 32 ∧
      ⟨0⟩ ∈ (s.called haunting 1).members ∧ (s.called haunting 2).roster.isAlive ⟨0⟩ = true ∧
      ∀ k < 2, (s.result (fun _ world => world) k).isOk = true := by
    decide +kernel
  -- Nothing else of the calls is evaluated.
  generalize ofConfig wearing .empty Rules.still = s at *
  obtain ⟨hfailed, hids, hmember, hlives, hfine⟩ := hfacts
  obtain ⟨hyears, hages, -⟩ := hcalls
  obtain ⟨-, -, -, -, htold⟩ := hcalm
  obtain ⟨-, halive, hhealth⟩ := hages hids 1 (by decide)
  obtain ⟨q, hq, -⟩ := Roster.exists_of_isAlive (halive ⟨0⟩ hmember)
  obtain ⟨⟨loss, hloss⟩, hstays⟩ := (hhealth ⟨0⟩ q hq).1 hmember
  obtain ⟨hdiffer, hdeaths⟩ := htold hfine
  refine ⟨hfailed, ?_, hids, ⟨q, loss, hq, hloss⟩, hstays hlives, hfine, fun heq => ?_, hdeaths⟩
  · refine (hyears 0 1 (by omega) (by omega)).2 fun i _ hi => ?_
    rw [Nat.lt_one_iff.1 hi]
    exact hfailed
  · have hsame := hdiffer (by omega) 0 (by omega) 1 (by omega) heq
    cases hsame

/-- Both calls have the same year, and the king loses health in each. Those who die in the first
call are dead in the roster, and no report tells of it. -/
theorem year_passes_twice :
    let s := ofConfig wearing .empty Rules.still
    let t := ofConfig fleeting .empty Rules.still
    (s.called haunting 0).clock.year = 1000 ∧ (s.called haunting 1).clock.year = 1000 ∧
    (s.result haunting 0).isOk = false ∧ (s.result haunting 1).isOk = true ∧
    ⟨0⟩ ∈ (s.called haunting 0).members ∧ ⟨0⟩ ∈ (s.called haunting 1).members ∧
    (s.called haunting 0).roster.healthOf ⟨0⟩ = some 100 ∧
    (s.called haunting 1).roster.healthOf ⟨0⟩ = some 95 ∧
    (s.called haunting 2).roster.healthOf ⟨0⟩ = some 90 ∧
    (t.called haunting 2).roster.obituaries.length = 2 ∧
    ((t.returned haunting 2).flatMap Report.families).filterMap FamilyEvent.obituary? = [] := by
  decide +kernel

end Simulation

end Annals
