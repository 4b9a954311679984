import Annals.Proofs.Family.Births
import Annals.Proofs.Simulation.Lineage
import Annals.Proofs.Simulation.Operations
import Annals.Proofs.Simulation.Whereabouts
/-!
# Births over the years

Nobody is twice in the families of a year, so no mother has two turns in it. As long as no year, age
or health wraps around, every birth of a run is therefore lawful and stays so in the records.

* `Simulation.nodup_families`: nobody has two turns in a year.
* `Simulation.births_step`: a finished step keeps the births lawful and begins a later year.
* `Simulation.births_after`: what the records of all children and their parents say.
* `Simulation.founder_born`: what they can say when there is no id left for a child.
-/

namespace Annals.Simulation

variable {σ : Type} [Dice σ] {s : Simulation σ}

/-- As long as ids are left, nobody is twice in the families. -/
theorem nodup_families (c : Config) (catalog : Catalog) (dice : σ) (n : Nat)
    (hids : ((ofConfig c catalog dice).after n).roster.size ≤ 2 ^ 32) :
    (((ofConfig c catalog dice).after n).dynasties.flatMap Dynasty.family).Nodup := by
  have honce := ((census_law σ).after c catalog dice n).nodup_families hids
  rw [map_fst_sagas] at honce
  exact honce

/-- A year on the market brings no births. -/
theorem births_passMarket {settings : ChildbirthSettings} {year : Year} {waiting : List PersonId}
    (h : s.roster.Births settings year waiting) :
    s.passMarket.roster.Births settings year waiting := by
  unfold passMarket
  rcases s.market.update_cases s.settings s.clock.year s.roster s.dice with
    ⟨dice', heq⟩ | ⟨arrival, dice', heq⟩
  · rw [heq]
    exact h
  · rw [heq]
    exact h.keep (.spawn ..) (Roster.SameLinks.spawn ..).parents (List.Subset.refl _)

/-- A finished step in which no year, age or health wraps around keeps the births lawful. In the
year after it everyone's turn is still to come. -/
theorem births_step (hblank : s.book = .blank) (hr : s.roster.Genealogy)
    (honce : (s.dynasties.flatMap Dynasty.family).Nodup)
    (hb : ∀ waiting, s.roster.Births s.settings.childbirth s.clock.year waiting)
    (hok : s.step.1.isOk = true)
    (hops : ∀ op ∈ s.operations, op.isSigned = true → op.InRange)
    (hsize : s.step.2.roster.size ≤ 2 ^ 32) (waiting : List PersonId) :
    s.step.2.roster.Births s.settings.childbirth s.step.2.clock.year waiting := by
  have hmarket : s.passMarket.roster.Genealogy :=
    @FamilyLaw.passMarket σ _ _ genealogy_law s s.dynasties (fun _ => hr)
      (Nat.le_trans s.continues_passDynasties.size_le hsize)
  obtain ⟨-, -, -, hborn⟩ := (births_turnLaw σ s.settings s.clock.year).step hsize hops
    ⟨hmarket, honce, births_passMarket (hb _)⟩
  refine hborn.newYear ?_ waiting
  -- The clock moves on without wrapping around.
  have htick : (Operation.add s.clock.year 1).InRange := by
    refine hops _ ?_ rfl
    unfold operations
    rw [if_pos hok]
    exact List.mem_append_right _ (List.mem_singleton_self _)
  rw [clock_step hblank hok, Int32.lt_iff_toInt_lt]
  show s.clock.year.toInt < (s.clock.year + 1).toInt
  rw [Operation.toInt_add htick, show (1 : Int32).toInt = 1 from rfl]
  exact Int.lt_succ _

/-- After finished steps in which no year, age or health has wrapped around, all births have been
lawful, and in the year of the clock everyone's turn is still to come. -/
theorem births_of_steps (c : Config) (catalog : Catalog) (dice : σ) (n : Nat)
    (hsteps : ∀ k < n, ((ofConfig c catalog dice).after k).step.1.isOk = true ∧
      ∀ op ∈ ((ofConfig c catalog dice).after k).operations, op.isSigned = true → op.InRange)
    (hids : ((ofConfig c catalog dice).after n).roster.size ≤ 2 ^ 32) (waiting : List PersonId) :
    ((ofConfig c catalog dice).after n).roster.Births c.family.childbirth
      ((ofConfig c catalog dice).after n).clock.year waiting := by
  induction n generalizing waiting with
  | zero =>
    exact ofConfig_induction (P := fun _ r => r.Births c.family.childbirth c.run.startYear waiting)
      (fun _ _ _ _ _ h => h.withCouple ..) (.empty ..) c catalog dice
  | succ n ih =>
    have hbefore := Nat.le_trans (continues_step _).size_le hids
    obtain ⟨hok, hops⟩ := hsteps n (Nat.lt_succ_self n)
    have hsettings := settings_after (ofConfig c catalog dice) n
    have hstep := births_step (book_after rfl n) (genealogy_law.after c catalog dice n hbefore)
      (nodup_families c catalog dice n hbefore)
      (fun w => by
        rw [hsettings]
        exact ih (fun k hk => hsteps k (Nat.lt_succ_of_lt hk)) hbefore w)
      hok hops hids waiting
    rw [hsettings] at hstep
    exact hstep

/-- After any number of finished steps in which no year, age or health has wrapped around, and as
long as ids are left, every child has a mother and a father who are in the roster and partners of
each other. The mother is female, her age at the birth is within the years of childbirth, and the
child has her faction and region. Neither parent has died before the year of the birth, and the
mother has no other child of that year. -/
theorem births_after (c : Config) (catalog : Catalog) (dice : σ) (n : Nat)
    (hsteps : ∀ k < n, ((ofConfig c catalog dice).after k).step.1.isOk = true ∧
      ∀ op ∈ ((ofConfig c catalog dice).after k).operations, op.isSigned = true → op.InRange)
    (hids : ((ofConfig c catalog dice).after n).roster.size ≤ 2 ^ 32) :
    let r := ((ofConfig c catalog dice).after n).roster
    ∀ (x m f : PersonId) (child : Person), r.get? x = some child → child.parents = some (m, f) →
      ∃ mother father : Person, r.get? m = some mother ∧ r.get? f = some father ∧
        mother.gender = .female ∧
        c.family.childbirth.minAge.toInt < child.birthYear.toInt - mother.birthYear.toInt ∧
        child.birthYear.toInt - mother.birthYear.toInt < c.family.childbirth.maxAge.toInt ∧
        f ∈ mother.partners ∧ m ∈ father.partners ∧
        (∀ y, mother.deathYear = some y → child.birthYear ≤ y) ∧
        (∀ y, father.deathYear = some y → child.birthYear ≤ y) ∧
        child.faction = mother.faction ∧ child.region = mother.region ∧
        ∀ (x' f' : PersonId) (other : Person), r.get? x' = some other →
          other.parents = some (m, f') → x' ≠ x → other.birthYear ≠ child.birthYear := by
  intro r x m f child hchild hparents
  have hr : r.Genealogy := genealogy_law.after c catalog dice n hids
  have hb := births_of_steps c catalog dice n hsteps hids []
  have hx : r.parentsOf x = some (m, f) := (Roster.parentsOf_of_get? hchild).trans hparents
  obtain ⟨mother, father, hmother, hfather, hlawful⟩ := (hb.born hx hchild).lawful
  obtain ⟨hfemale, hpartner⟩ := hr.wedded hx
  have hpartner' := hr.symmetric hpartner
  rw [Roster.genderOf_of_get? hmother] at hfemale
  rw [Roster.partnersOf_of_get? hmother] at hpartner
  rw [Roster.partnersOf_of_get? hfather] at hpartner'
  refine ⟨mother, father, hmother, hfather, Option.some.inj hfemale, hlawful.old, hlawful.young,
    hpartner, hpartner', hlawful.motherLived, hlawful.fatherLived, hlawful.faction, hlawful.region,
    fun x' f' other hother hparents' hne => ?_⟩
  exact hb.apart ((Roster.parentsOf_of_get? hother).trans hparents') hx hother hchild hne

/-- Three finished years with the usual settings, in which nothing wraps around: the founding couple
has a child in the first and another one in the second. -/
theorem births_after_siblings :
    let s := ofConfig {} .empty Rules.still
    let r := (s.after 3).roster
    (∀ k < 3, (s.after k).step.1.isOk = true ∧
      ∀ op ∈ (s.after k).operations, op.isSigned = true → op.InRange) ∧ r.size ≤ 2 ^ 32 ∧
    ∃ child other mother father : Person, r.get? ⟨3⟩ = some child ∧ r.get? ⟨5⟩ = some other ∧
      child.parents = some (⟨1⟩, ⟨0⟩) ∧ other.parents = some (⟨1⟩, ⟨0⟩) ∧
      r.get? ⟨1⟩ = some mother ∧ r.get? ⟨0⟩ = some father ∧ mother.gender = .female ∧
      16 < child.birthYear.toInt - mother.birthYear.toInt ∧
      child.birthYear.toInt - mother.birthYear.toInt < 45 ∧
      ⟨0⟩ ∈ mother.partners ∧ ⟨1⟩ ∈ father.partners ∧ child.faction = mother.faction ∧
      other.birthYear ≠ child.birthYear := by
  intro s r
  have hsteps : ∀ k < 3, (s.after k).step.1.isOk = true ∧
      ∀ op ∈ (s.after k).operations, op.isSigned = true → op.InRange := by decide +kernel
  have hids : r.size ≤ 2 ^ 32 := by decide +kernel
  have hborn : r.parentsOf ⟨3⟩ = some (⟨1⟩, ⟨0⟩) := by decide +kernel
  have hborn' : r.parentsOf ⟨5⟩ = some (⟨1⟩, ⟨0⟩) := by decide +kernel
  obtain ⟨child, hchild, hparents⟩ := Option.bind_eq_some_iff.1 hborn
  obtain ⟨other, hother, hparents'⟩ := Option.bind_eq_some_iff.1 hborn'
  obtain ⟨mother, father, hmother, hfather, hfemale, hold, hyoung, hpartner, hpartner', -, -,
    hfaction, -, hsiblings⟩ :=
    births_after {} .empty Rules.still 3 hsteps hids ⟨3⟩ ⟨1⟩ ⟨0⟩ child hchild hparents
  exact ⟨hsteps, hids, child, other, mother, father, hchild, hother, hparents, hparents', hmother,
    hfather, hfemale, hold, hyoung, hpartner, hpartner', hfaction,
    hsiblings ⟨5⟩ ⟨0⟩ other hother hparents' (by decide)⟩

/-! ## Rosters without an id left -/

/-- Without illness and chance, and with nobody on the market, the year of dynasties wraps nothing
around. -/
theorem inRange_passHouses {minAge : Int32} {year : Year} (ds : List Dynasty) {r : Roster}
    {m : Market} (dice : σ) (hrecent : House.Recent year r) (hmarket : m.candidates = []) :
    (∀ op ∈ housesOperations (.placid minAge) year ds r m dice, op.InRange) ∧
      House.Recent year (passHouses (.placid minAge) year ds r m dice).2.2.1 := by
  induction ds generalizing r m dice with
  | nil => exact ⟨List.forall_mem_nil _, hrecent⟩
  | cons d rest ih =>
    let h : House σ := ⟨d, r, m, dice⟩
    -- The first house leaves the rest a recent roster and a market without candidates.
    obtain ⟨hfirst, hrecent', hmarket'⟩ :=
      @House.inRange_passMembers σ _ year minAge d.family h hrecent hmarket
    obtain ⟨hlater, hend⟩ := ih (h.passYear (.placid minAge) year).2.dice hrecent' hmarket'
    exact ⟨List.forall_mem_append.2 ⟨hfirst, hlater⟩, hend⟩

theorem isSome_parentsOf_passHouses (settings : FamilySettings) (year : Year) (ds : List Dynasty)
    {r : Roster} (m : Market) (dice : σ) {x : PersonId} (hx : (r.parentsOf x).isSome = true) :
    ((passHouses settings year ds r m dice).2.2.1.parentsOf x).isSome = true := by
  induction ds generalizing r m dice with
  | nil => exact hx
  | cons d rest ih =>
    exact ih _ _
      (House.isSome_parentsOf_passMembers (h := ⟨d, r, m, dice⟩) settings year d.family hx)

/-- A market on which nobody ever comes stays empty. -/
theorem update_placid (minAge : Int32) (year : Year) (r : Roster) (dice : σ) :
    Market.empty.update (.placid minAge) year r dice = (.empty, r, (Dice.roll dice).2) ∧
      Market.empty.updateOperations (.placid minAge) year r dice = [] := by
  have hnobody : (Dice.roll dice).1.reaches
      (FamilySettings.placid minAge).marriage.newCandidateChance = true :=
    Dice.reaches_of_le_zero (show (0 : Float) ≤ 0 by decide) _
  unfold Market.update Market.updateOperations
  dsimp only
  rw [if_pos hnobody, if_pos hnobody]
  exact ⟨rfl, rfl⟩

section Placid

variable {minAge : Int32} (hsettings : s.settings = .placid minAge) (hmarket : s.market = .empty)
include hsettings hmarket

theorem passMarket_placid : s.passMarket.roster = s.roster ∧ s.passMarket.market = .empty ∧
    s.market.updateOperations s.settings s.clock.year s.roster s.dice = [] := by
  obtain ⟨hupdate, hnone⟩ := update_placid minAge s.clock.year s.roster s.dice
  unfold passMarket
  rw [hmarket, hsettings, hupdate]
  exact ⟨rfl, rfl, hnone⟩

/-- In a step without illness, chance and outsiders nothing wraps around. -/
theorem inRange_placid (hrecent : House.Recent s.clock.year s.roster)
    (hlast : s.clock.year.toInt + 1 < 2 ^ 31) : ∀ op ∈ s.operations, op.InRange := by
  obtain ⟨hroster, hempty, hnone⟩ := passMarket_placid hsettings hmarket
  refine List.forall_mem_append.2 ⟨List.forall_mem_append.2
    ⟨List.forall_mem_append.2 ⟨?market, ?houses⟩, ?world⟩, ?clock⟩
  case market =>
    rw [hnone]
    exact List.forall_mem_nil _
  case houses =>
    show ∀ op ∈ housesOperations s.settings s.clock.year s.dynasties s.passMarket.roster
      s.passMarket.market s.passMarket.dice, op.InRange
    rw [hsettings, hroster, hempty]
    exact (inRange_passHouses s.dynasties s.passMarket.dice hrecent rfl).1
  case world =>
    split
    · exact List.forall_mem_nil _
    · exact Rules.inRange_passYearOperations _ _ _ _
  case clock =>
    split
    · refine List.forall_mem_singleton.2 (Operation.inRange_add.2 ?_)
      have hlow := Int32.le_toInt s.clock.year
      have hone : (1 : Int32).toInt = 1 := rfl
      omega
    · exact List.forall_mem_nil _

omit hsettings hmarket in
/-- In the year of its founding a full roster gives parents to the first founder: the first newborn
gets his id, and later births leave him parents. -/
theorem isSome_parentsOf_founder {ds : List Dynasty} {r : Roster} {year : Year}
    (hcouples : Dynasty.Couples ds r) (hfull : r.size = 2 ^ 32) (hfounded : r.Founded year)
    (hqueen : ∀ q, r.get? ⟨1⟩ = some q → minAge.toInt < year.toInt - q.birthYear.toInt)
    (dice : σ) :
    ((passHouses (.placid minAge) year ds r .empty dice).2.2.1.parentsOf ⟨0⟩).isSome = true := by
  cases ds with
  | nil =>
    have hsize := hcouples.size
    rw [hfull] at hsize
    cases hsize
  | cons d rest =>
    have hd := hcouples.place (i := 0) (d := d) rfl
    have hage : ∀ q, r.get? d.foundingQueen = some q →
        minAge.toInt < year.toInt - q.birthYear.toInt := by
      rw [hd]
      exact hqueen
    obtain ⟨before, arrival, father, dice', hyear, -, -, hnext⟩ :=
      House.birth_of_couple minAge hcouples hfounded hfull ⟨d, r, .empty, dice⟩
        List.mem_cons_self (hcouples.wedded (Nat.le_of_eq hfull)).1
        ⟨fun _ => rfl, fun _ => rfl, fun _ => rfl⟩ rfl (fun _ _ => rfl) hage
    refine isSome_parentsOf_passHouses (.placid minAge) year rest _ _ ?_
    show ((House.passYear (.placid minAge) year ⟨d, r, .empty, dice⟩).2.roster.parentsOf
      ⟨0⟩).isSome = true
    rw [hyear]
    show ((before.roster.bear arrival d.foundingQueen father).parentsOf ⟨0⟩).isSome = true
    rw [← hnext, Roster.parentsOf_bear_nextId]
    rfl

/-- After that year the parents of the first founder are no more than twenty years older than he is,
whatever age is asked of mothers. -/
theorem founder_born (hcouples : Dynasty.Couples s.dynasties s.roster)
    (hfull : s.roster.size = 2 ^ 32) (hfounded : s.roster.Founded s.clock.year)
    (hqueen : ∀ q, s.roster.get? ⟨1⟩ = some q →
      minAge.toInt < s.clock.year.toInt - q.birthYear.toInt) :
    ∃ (m f : PersonId) (child mother : Person), s.step.2.roster.get? ⟨0⟩ = some child ∧
      child.parents = some (m, f) ∧ s.step.2.roster.get? m = some mother ∧
      child.birthYear.toInt - mother.birthYear.toInt ≤ 20 := by
  obtain ⟨hroster, hempty, -⟩ := passMarket_placid hsettings hmarket
  have hstep : s.step.2.roster =
      (passHouses (.placid minAge) s.clock.year s.dynasties s.roster .empty
        s.passMarket.dice).2.2.1 := by
    rw [← hsettings, ← hroster, ← hempty]
    exact s.families_step.2.1
  rw [hstep]
  have hparents := isSome_parentsOf_founder hcouples hfull hfounded hqueen s.passMarket.dice
  have hlater := continues_passHouses (.placid minAge) s.clock.year s.dynasties s.roster .empty
    s.passMarket.dice
  have hknown : ∀ x, ∃ p, s.roster.get? x = some p := by
    intro x
    refine Roster.exists_of_lt_size ?_
    rw [hfull]
    exact UInt32.toNat_lt x.index
  obtain ⟨⟨m, f⟩, hborn⟩ := Option.isSome_iff_exists.1 hparents
  obtain ⟨child, hchild, hcouple⟩ := Option.bind_eq_some_iff.1 hborn
  -- Every id is a founder's, so the mother is one: twenty years old or more, and at most forty.
  obtain ⟨founder, hfounder⟩ := hknown ⟨0⟩
  obtain ⟨woman, hwoman⟩ := hknown m
  obtain ⟨founder', hfounder', hsame⟩ := hlater.stays hfounder
  obtain rfl : founder' = child := Option.some.inj (hfounder'.symm.trans hchild)
  obtain ⟨mother, hmother, hsame'⟩ := hlater.stays hwoman
  refine ⟨m, f, founder', mother, hchild, hcouple, hmother, ?_⟩
  obtain ⟨hyoung, -, -⟩ := hfounded.persons hfounder
  obtain ⟨-, hold, -⟩ := hfounded.persons hwoman
  rw [hsame.birthYear, hsame'.birthYear]
  omega

end Placid

/-- So it is in the first year of a simulation with as many founders as there are ids. -/
theorem founder_born_after {c : Config} {minAge : Int32} (hfamily : c.family = .placid minAge)
    (hfull : c.run.dynasties.length = 2 ^ 31) (hstart : -2 ^ 31 + 40 ≤ c.run.startYear.toInt)
    (hlast : c.run.startYear.toInt + 1 < 2 ^ 31) {catalog : Catalog} (hcatalog : catalog.Loaded)
    (dice : σ)
    (hqueen : ∀ q, (ofConfig c catalog dice).roster.get? ⟨1⟩ = some q →
      minAge.toInt < c.run.startYear.toInt - q.birthYear.toInt) :
    (∀ k < 1, ((ofConfig c catalog dice).after k).step.1.isOk = true ∧
      ∀ op ∈ ((ofConfig c catalog dice).after k).operations, op.InRange) ∧
    ∃ (m f : PersonId) (child mother : Person),
      ((ofConfig c catalog dice).after 1).roster.get? ⟨0⟩ = some child ∧
      child.parents = some (m, f) ∧
      ((ofConfig c catalog dice).after 1).roster.get? m = some mother ∧
      child.birthYear.toInt - mother.birthYear.toInt ≤ 20 := by
  have hcouples := couples_ofConfig c catalog dice
  have hsize : (ofConfig c catalog dice).roster.size = 2 ^ 32 := by
    rw [hcouples.size, length_dynasties_ofConfig, hfull]
    decide
  have hhealth : c.family.ageing.initialHealth = 100 := by
    rw [hfamily]
    rfl
  have hfounded := founders_ofConfig hstart hhealth catalog dice
  have hrecent := House.recent_of_founded hfounded hcouples.obituaries (Nat.le_of_eq hsize)
  have hops := inRange_placid (s := ofConfig c catalog dice) hfamily rfl hrecent hlast
  refine ⟨fun k hk => ?_, founder_born hfamily rfl hcouples hsize hfounded hqueen⟩
  obtain rfl : k = 0 := by omega
  obtain ⟨⟨report, hreport⟩, -⟩ :=
    (sound_ofConfig c hcatalog dice).step_ok (onTime_ofConfig c catalog dice)
  refine ⟨?_, hops⟩
  show (ofConfig c catalog dice).step.1.isOk = true
  rw [hreport]
  rfl

/-- The first founders stay as old as they are when the first dynasty is founded. -/
theorem birthYear_of_found (family : FamilySettings) {couples : Nat} (hcouples : 0 < couples)
    {catalog : Catalog} {dice : σ} {x : PersonId} {p q : Person}
    (hfirst : (Dynasty.found "House Nerdival" 1000 family.ageing.initialHealth .empty
      dice).2.1.get? x = some p)
    (hq : (ofConfig (crowded family couples) catalog dice).roster.get? x = some q) :
    q.birthYear = p.birthYear := by
  obtain ⟨n, rfl⟩ := Nat.exists_eq_succ_of_ne_zero (Nat.ne_of_gt hcouples)
  have hlater : (Dynasty.found "House Nerdival" 1000 family.ageing.initialHealth .empty
      dice).2.1.Continues (ofConfig (crowded family (n + 1)) catalog dice).roster :=
    Dynasty.continues_foundAll ..
  obtain ⟨q', hq', hsame⟩ := hlater.stays hfirst
  obtain rfl : q' = q := Option.some.inj (hq'.symm.trans hq)
  exact hsame.birthYear

/-- With as many dynasties as there are ids for couples, the child of the first couple gets the id
of its father. The first founder then has parents of his own age, in a year in which nothing wraps
around. -/
theorem births_of_crowd :
    let s := ofConfig (crowded (.placid 20) (2 ^ 31)) .empty (Generator.seeded 42)
    (∀ k < 1, (s.after k).step.1.isOk = true ∧
      ∀ op ∈ (s.after k).operations, op.isSigned = true → op.InRange) ∧
    ∃ (x m f : PersonId) (child mother : Person), (s.after 1).roster.get? x = some child ∧
      child.parents = some (m, f) ∧ (s.after 1).roster.get? m = some mother ∧
      ¬ (20 : Int32).toInt < child.birthYear.toInt - mother.birthYear.toInt := by
  have hqueen : ∀ q, (ofConfig (crowded (.placid 20) (2 ^ 31)) .empty
      (Generator.seeded 42)).roster.get? ⟨1⟩ = some q →
      (20 : Int32).toInt < (1000 : Int32).toInt - q.birthYear.toInt := by
    intro q hq
    -- The first queen is twenty-six; only the first founding is evaluated.
    have hfirst : ((Dynasty.found "House Nerdival" 1000 100 .empty (Generator.seeded 42)).2.1.get?
        ⟨1⟩).map Person.birthYear = some 974 := by decide +kernel
    obtain ⟨p, hp, hborn⟩ := Option.map_eq_some_iff.1 hfirst
    rw [birthYear_of_found (.placid 20) (by decide) hp hq, hborn]
    decide
  obtain ⟨hsteps, m, f, child, mother, hchild, hparents, hmother, hage⟩ :=
    founder_born_after (c := crowded (.placid 20) (2 ^ 31)) rfl (length_crowded ..) (by decide)
      (by decide) Catalog.empty_loaded (Generator.seeded 42) hqueen
  intro s
  refine ⟨fun k hk => ⟨(hsteps k hk).1, fun op hop _ => (hsteps k hk).2 op hop⟩,
    ⟨0⟩, m, f, child, mother, hchild, hparents, hmother, ?_⟩
  exact Int.not_lt.2 hage

end Annals.Simulation
