import Annals.Proofs.Simulation.Chapters
/-!
# Sagas over the years

What the sagas tell is to be compared with the dynasties, the roster and the market. A law of sagas
holds at the founding and is kept by every move of family life, where the turn of a member adds to
one saga what the turn has brought. Such a law holds after any number of steps.

* `Simulation.sagas`, `Simulation.arrivals`: the dynasties with their sagas, and who has come to the
  market, after a number of steps.
* `SagaLaw`: a property that holds without dynasties and is kept by every move.
* `SagaLaw.after`, `FamilyLaw.after`: it holds after any number of steps from a configuration.
-/

namespace Annals

/-- A dynasty and what has been told of it. -/
abbrev ToldDynasty := Dynasty × List FamilyEvent

/-- A property of the dynasties with their sagas, the number of arrivals on the market, the roster
and the market that every move of family life keeps. -/
structure SagaLaw (σ : Type) [Dice σ] (P : List ToldDynasty → Nat → Roster → Market → Prop) :
    Prop where
  start : P [] 0 .empty .empty
  found : ∀ {ds k r} (name : String) {king queen : Roster.Arrival}, king.gender = .male →
    queen.gender = .female → P ds k r .empty →
    P (ds ++ [(.ofCouple name r.nextId (r.spawn king).2.nextId, [])]) k (r.withCouple king queen)
      .empty
  expire : ∀ {ds k r m}, P ds k r m → P ds k r (m.expire r)
  arrive : ∀ {ds k r m} (a : Roster.Arrival) (years : UInt32), P ds k r m →
    P ds (k + 1) (r.spawn a).2 (m.add r.nextId years)
  turn : ∀ {before behind : List ToldDynasty} {saga : List FamilyEvent} {k : Nat}
    {s : FamilySettings} {year : Year} {id : PersonId} {h h' : House σ} {events : List FamilyEvent},
    House.Turned s year id h events h' →
    (h.roster.isAlive id = true → id ∈ h.dynasty.family) →
    P (before ++ (h.dynasty, saga) :: behind) k h.roster h.market →
    P (before ++ (h'.dynasty, saga ++ events) :: behind) k h'.roster h'.market

/-- What does not look at the sagas is a law of them as well. -/
theorem FamilyLaw.toSagaLaw {σ : Type} [Dice σ] {P : List Dynasty → Roster → Market → Prop}
    (law : FamilyLaw σ P) : SagaLaw σ fun ds _ r m => P (ds.map Prod.fst) r m where
  start := law.start
  found := by
    intro ds k r name king queen hking hqueen hP
    rw [List.map_append]
    exact law.found name hking hqueen hP
  expire := law.expire
  arrive := law.arrive
  turn := by
    intro before behind saga k s year id h h' events hturned hmember hP
    rw [List.map_append, List.map_cons] at hP ⊢
    exact law.turn hturned hmember hP

namespace Simulation

variable {σ : Type} [Dice σ]

/-! ## Sagas and arrivals -/

/-- The dynasties after a number of steps, each with its saga. -/
def sagas (s : Simulation σ) (n : Nat) : List ToldDynasty :=
  (s.after n).dynasties.mapIdx fun i d => (d, s.saga i n)

/-- The candidates who come to the market in the next year: those behind the ones who stay. -/
def newcomers (s : Simulation σ) : List Candidate :=
  s.passMarket.market.candidates.drop (s.market.expire s.roster).candidates.length

/-- The candidates who have come to the market in a number of steps. -/
def arrivals (s : Simulation σ) : Nat → List Candidate
  | 0 => []
  | n + 1 => s.arrivals n ++ (s.after n).newcomers

theorem map_fst_sagas (s : Simulation σ) (n : Nat) :
    (s.sagas n).map Prod.fst = (s.after n).dynasties := by
  unfold sagas
  refine List.ext_getElem? fun i => ?_
  rw [List.getElem?_map, List.getElem?_mapIdx, Option.map_map]
  exact Option.map_id' ..

/-- A step adds to a saga the chapter at its place. -/
theorem saga_succ (s : Simulation σ) (i n : Nat) :
    s.saga i (n + 1) = s.saga i n ++ ((s.after n).chapters[i]?).getD [] := rfl

/-- A dynasty with its saga after the year of its house. -/
def tell (settings : FamilySettings) (year : Year) (d : ToldDynasty) (h : House σ) : ToldDynasty :=
  ((h.passYear settings year).2.dynasty, d.2 ++ (h.passYear settings year).1)

/-- Dynasties with their sagas are after a step the dynasties of the state after it. -/
theorem map_fst_tell {s : Simulation σ} {ds : List ToldDynasty}
    (hds : ds.map Prod.fst = s.dynasties) :
    (List.zipWith (tell s.settings s.clock.year) ds s.households).map Prod.fst =
      s.step.2.dynasties := by
  have hlength : s.households.length = ds.length := by
    rw [← List.length_map Prod.fst, hds, ← map_dynasty_households, List.length_map]
  rw [dynasties_step, List.map_zipWith]
  -- The house alone says what becomes of its dynasty.
  refine List.ext_getElem? fun i => ?_
  rw [List.getElem?_zipWith, List.getElem?_map]
  cases hhouse : s.households[i]? with
  | none =>
    cases ds[i]? <;> rfl
  | some h =>
    obtain ⟨hlt, -⟩ := List.getElem?_eq_some_iff.1 hhouse
    rw [List.getElem?_eq_getElem (Nat.lt_of_lt_of_eq hlt hlength)]
    rfl

/-- A step adds to each saga the chapter of its year. -/
theorem sagas_succ (s : Simulation σ) (n : Nat) :
    s.sagas (n + 1) =
      List.zipWith (tell (s.after n).settings (s.after n).clock.year) (s.sagas n)
        (s.after n).households := by
  refine List.ext_getElem? fun i => ?_
  have hnow : (s.after n).dynasties[i]? = ((s.after n).households[i]?).map House.dynasty := by
    rw [← map_dynasty_households, List.getElem?_map]
  have hnext : (s.after (n + 1)).dynasties[i]? = ((s.after n).households[i]?).map fun h =>
      (h.passYear (s.after n).settings (s.after n).clock.year).2.dynasty := by
    rw [after_succ, dynasties_step, List.getElem?_map]
  have hchapter : (s.after n).chapters[i]? = ((s.after n).households[i]?).map fun h =>
      (h.passYear (s.after n).settings (s.after n).clock.year).1 := List.getElem?_map ..
  -- Place by place: the dynasty moves on and its saga gets its chapter.
  unfold sagas
  rw [List.getElem?_mapIdx, hnext, List.getElem?_zipWith, List.getElem?_mapIdx, hnow, saga_succ,
    hchapter]
  cases (s.after n).households[i]? with
  | none => rfl
  | some h => rfl

end Simulation

namespace SagaLaw

variable {σ : Type} [Dice σ] {P : List ToldDynasty → Nat → Roster → Market → Prop}
  (law : SagaLaw σ P)

include law

/-! ## Years -/

/-- A year on the market keeps the law, with the newcomers counted. -/
theorem passMarket {s : Simulation σ} {ds : List ToldDynasty} {k : Nat}
    (hP : P ds k s.roster s.market) :
    P ds (k + s.newcomers.length) s.passMarket.roster s.passMarket.market := by
  have hstale := law.expire hP
  unfold Simulation.newcomers Simulation.passMarket
  rcases s.market.update_cases s.settings s.clock.year s.roster s.dice with
    ⟨dice', heq⟩ | ⟨arrival, dice', heq⟩
  · rw [heq]
    simpa using hstale
  · rw [heq]
    have hnew := law.arrive arrival s.settings.marriage.candidateYears hstale
    simpa [Market.add] using hnew

/-- The members of a list who live are members of the house at their turn, as they were at the
beginning. -/
theorem passMembers {before behind : List ToldDynasty} {saga : List FamilyEvent} {k : Nat}
    {s : FamilySettings} {year : Year} (ids : List PersonId) (h : House σ)
    (hids : ∀ id ∈ ids, h.roster.isAlive id = true → id ∈ h.dynasty.family)
    (hP : P (before ++ (h.dynasty, saga) :: behind) k h.roster h.market) :
    P (before ++ ((h.passMembers s year ids).2.dynasty, saga ++ (h.passMembers s year ids).1) ::
      behind) k (h.passMembers s year ids).2.roster (h.passMembers s year ids).2.market := by
  induction ids generalizing h saga with
  | nil =>
    rw [show (h.passMembers s year []).1 = [] from rfl, List.append_nil]
    exact hP
  | cons id rest ih =>
    -- Someone later in the list may have died by now, but then is no living member.
    have hturned := House.turned s year id h
    have hnext := law.turn hturned (hids id List.mem_cons_self) hP
    have hrest := ih (House.passMember s year id h).2 (fun x hx => ?later) hnext
    case later => exact hturned.stays (hids x (List.mem_cons_of_mem id hx))
    rw [List.append_assoc] at hrest
    exact hrest

theorem passYear {before behind : List ToldDynasty} {saga : List FamilyEvent} {k : Nat}
    (s : FamilySettings) (year : Year) (h : House σ)
    (hP : P (before ++ (h.dynasty, saga) :: behind) k h.roster h.market) :
    P (before ++ Simulation.tell s year (h.dynasty, saga) h :: behind) k
      (h.passYear s year).2.roster (h.passYear s year).2.market :=
  law.passMembers h.dynasty.family h (fun _ hid _ => hid) hP

theorem passHouses {before ds : List ToldDynasty} {k : Nat} (settings : FamilySettings)
    (year : Year) {r : Roster} {m : Market} (dice : σ) (hP : P (before ++ ds) k r m) :
    let passed := Simulation.passHouses settings year (ds.map Prod.fst) r m dice
    P (before ++ List.zipWith (Simulation.tell settings year) ds
        (Simulation.houses settings year (ds.map Prod.fst) r m dice)) k
      passed.2.2.1 passed.2.2.2.1 := by
  -- The houses before have had their year; each house takes over what the last one left.
  induction ds generalizing before r m dice with
  | nil => exact hP
  | cons d rest ih =>
    have hyear := law.passYear settings year ⟨d.1, r, m, dice⟩ hP
    rw [List.append_cons] at hyear
    have hrest := ih (House.passYear settings year ⟨d.1, r, m, dice⟩).2.dice hyear
    rw [← List.append_cons] at hrest
    exact hrest

/-! ## Simulations -/

theorem step {s : Simulation σ} {ds : List ToldDynasty} {k : Nat}
    (hds : ds.map Prod.fst = s.dynasties) (hP : P ds k s.roster s.market) :
    P (List.zipWith (Simulation.tell s.settings s.clock.year) ds s.households)
      (k + s.newcomers.length) s.step.2.roster s.step.2.market := by
  obtain ⟨-, hroster, hmarket, -⟩ := s.families_step
  have hpassed : P ([] ++ ds) (k + s.newcomers.length) s.passMarket.roster s.passMarket.market :=
    law.passMarket hP
  have hyear := law.passHouses s.settings s.clock.year s.passMarket.dice hpassed
  rw [hds] at hyear
  rw [hroster, hmarket]
  exact hyear

theorem ofConfig (c : Config) (catalog : Catalog) (dice : σ) :
    P ((Simulation.ofConfig c catalog dice).sagas 0) 0 (Simulation.ofConfig c catalog dice).roster
      .empty := by
  have hunsung := Simulation.ofConfig_induction
    (P := fun ds r => P (ds.map fun d => (d, [])) 0 r .empty) ?found law.start c catalog dice
  case found =>
    intro ds r name king queen hking hqueen hP
    rw [List.map_append]
    exact law.found name hking hqueen hP
  -- At the founding nothing has been told.
  have hsagas : ∀ ds : List Dynasty,
      ds.mapIdx (fun i d => (d, (Simulation.ofConfig c catalog dice).saga i 0)) =
        ds.map fun d => (d, []) := by
    intro ds
    refine List.ext_getElem? fun i => ?_
    rw [List.getElem?_map, List.getElem?_mapIdx]
    rfl
  unfold Simulation.sagas
  rw [hsagas]
  exact hunsung

/-- What every move of family life keeps holds after any number of steps. -/
theorem after (c : Config) (catalog : Catalog) (dice : σ) (n : Nat) :
    let s := Simulation.ofConfig c catalog dice
    P (s.sagas n) (s.arrivals n).length (s.after n).roster (s.after n).market := by
  intro s
  induction n with
  | zero => exact law.ofConfig c catalog dice
  | succ n ih =>
    unfold Simulation.arrivals
    rw [Simulation.sagas_succ, List.length_append]
    exact law.step (s.map_fst_sagas n) ih

end SagaLaw

/-- What every move of family life keeps holds after any number of steps. -/
theorem FamilyLaw.after {σ : Type} [Dice σ] {P : List Dynasty → Roster → Market → Prop}
    (law : FamilyLaw σ P) (c : Config) (catalog : Catalog) (dice : σ) (n : Nat) :
    ((Simulation.ofConfig c catalog dice).after n).Families P := by
  have hsagas := Simulation.map_fst_sagas (Simulation.ofConfig c catalog dice) n
  unfold Simulation.Families
  rw [← hsagas]
  exact law.toSagaLaw.after c catalog dice n

end Annals
