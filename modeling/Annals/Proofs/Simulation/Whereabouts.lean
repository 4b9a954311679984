import Annals.Proofs.Family.Census
import Annals.Proofs.Simulation.Years
/-!
# Who is where

After any number of steps the families and the market share the active persons among them: nobody is
in two places, and whoever lives and has ever been married or has parents is in a family. The sagas
account for everyone: a family is as large as its weddings, births and deaths say, the deaths are
those of the dead in the roster, and the roster holds the founders, the newborn and the arrivals.

* `Recorded`, `recorded_law`: what the sagas say of the roster.
* `Settlement`: everyone has a house, and the monarchs are members; this is `settled_law`.
* `Counted`: what the sagas say of the families, as long as ids are left.
* `Census`, `census_law`: all of it, kept by everything that a step does.
* `Settled.disjoint`, `Settled.existsUnique_family`: houses are apart from one another.
* `Simulation.census_after`: all of it, after any number of steps. With more founders than ids two
  families meet (`census_of_crowd`).
-/

namespace Annals

/-! ## The roster -/

/-- All that has been told of a number of dynasties. -/
def allEvents (ds : List ToldDynasty) : List FamilyEvent := ds.flatMap Prod.snd

/-- What is added to one saga is added to all that has been told. -/
theorem allEvents_turn (before behind : List ToldDynasty) (d d' : Dynasty)
    (saga events : List FamilyEvent) :
    (allEvents (before ++ (d', saga ++ events) :: behind)).Perm
      (allEvents (before ++ (d, saga) :: behind) ++ events) := by
  unfold allEvents
  rw [List.flatMap_append, List.flatMap_append, List.flatMap_cons, List.flatMap_cons,
    List.append_assoc, List.append_assoc, List.append_assoc]
  exact (List.perm_append_comm.append_left saga).append_left _

/-- Families are lists of different persons, the deaths that are told are those of the roster, and
the roster has grown by founders, births and arrivals only. -/
structure Recorded (ds : List ToldDynasty) (k : Nat) (r : Roster) : Prop where
  once : ∀ d ∈ ds, d.1.family.Nodup
  dead : r.obituaries.Perm ((allEvents ds).filterMap FamilyEvent.obituary?)
  size : r.size = 2 * ds.length + (allEvents ds).countP FamilyEvent.isBirth + k

/-- What holds for all dynasties with their sagas still holds when one of them has changed, if it
holds for that one. -/
theorem forall_mem_turn {Q : ToldDynasty → Prop} {before behind : List ToldDynasty}
    {d d' : ToldDynasty} (hall : ∀ e ∈ before ++ d :: behind, Q e) (hown : Q d → Q d') :
    ∀ e ∈ before ++ d' :: behind, Q e := by
  rw [List.forall_mem_append, List.forall_mem_cons] at hall ⊢
  exact ⟨hall.1, hown hall.2.1, hall.2.2⟩

theorem recorded_law (σ : Type) [Dice σ] : SagaLaw σ fun ds k r _ => Recorded ds k r where
  start := ⟨List.forall_mem_nil _, .refl _, rfl⟩
  found := by
    intro ds k r name king queen hking hqueen h
    have hevents : ∀ d : Dynasty, allEvents (ds ++ [(d, [])]) = allEvents ds := by
      intro d
      unfold allEvents
      rw [List.flatMap_append]
      exact List.append_nil _
    refine ⟨?once, ?dead, ?size⟩
    case once =>
      refine List.forall_mem_append.2 ⟨h.once, List.forall_mem_singleton.2 ?_⟩
      -- The queen's id follows the king's.
      have hne : r.nextId ≠ (r.spawn king).2.nextId := by
        unfold Roster.nextId
        rw [Roster.size_spawn, UInt32.ofNat_add]
        intro heq
        have hindex : UInt32.ofNat r.size = UInt32.ofNat r.size + 1 := congrArg PersonId.index heq
        simp at hindex
      exact List.nodup_cons.2 ⟨fun hmem => hne (List.mem_singleton.1 hmem), List.nodup_singleton _⟩
    case dead =>
      rw [hevents, Roster.obituaries_withCouple]
      exact h.dead
    case size =>
      rw [hevents, Roster.size_withCouple, h.size, List.length_append, List.length_singleton]
      omega
  expire := fun h => h
  arrive := by
    intro ds k r m a years h
    refine ⟨h.once, ?_, ?_⟩
    · rw [Roster.obituaries_spawn]
      exact h.dead
    · rw [Roster.size_spawn, h.size]
      rfl
  turn := by
    intro before behind saga k s year id h h' events hturned hmember hP
    have hevents := allEvents_turn before behind h.dynasty h'.dynasty saga events
    refine ⟨forall_mem_turn hP.once hturned.nodup, ?dead, ?size⟩
    case dead =>
      have hboth := hturned.obituaries.trans (hP.dead.append_right _)
      rw [← List.filterMap_append] at hboth
      exact hboth.trans (hevents.filterMap _).symm
    case size =>
      rw [hturned.size, hP.size, hevents.countP_eq, List.countP_append, List.length_append,
        List.length_append, List.length_cons, List.length_cons]
      omega

/-! ## The families -/

/-- As long as ids are left, everyone is in a house and every monarch is a member. -/
def Settlement (ds : List Dynasty) (r : Roster) (m : Market) : Prop :=
  r.size ≤ 2 ^ 32 → r.Genealogy ∧ (∃ home, Settled home ds r m) ∧ ∀ d ∈ ds, d.Enthroned

theorem settlement_law (σ : Type) [Dice σ] :
    SagaLaw σ fun ds _ r m => Settlement (ds.map Prod.fst) r m :=
  Simulation.settled_law.toSagaLaw

/-- Whoever is on the market lives and is there once, and a family is as large as its saga says. -/
structure Counted (ds : List ToldDynasty) (r : Roster) (m : Market) : Prop where
  waiting : m.Waiting r
  headcount : ∀ d ∈ ds, d.1.family.length + d.2.countP FamilyEvent.isDeath =
    2 + d.2.countP FamilyEvent.isMarriage + d.2.countP FamilyEvent.isBirth

/-- Everyone has a place, and the sagas account for everyone. -/
structure Census (ds : List ToldDynasty) (k : Nat) (r : Roster) (m : Market) : Prop where
  recorded : Recorded ds k r
  settlement : Settlement (ds.map Prod.fst) r m
  counted : r.size ≤ 2 ^ 32 → Counted ds r m

theorem census_law (σ : Type) [Dice σ] : SagaLaw σ Census where
  start := ⟨(recorded_law σ).start, (settlement_law σ).start,
    fun _ => ⟨Market.waiting_empty _, List.forall_mem_nil _⟩⟩
  found := by
    intro ds k r name king queen hking hqueen hP
    refine ⟨(recorded_law σ).found name hking hqueen hP.recorded,
      (settlement_law σ).found (k := k) name hking hqueen hP.settlement, fun hsize => ?_⟩
    have h := hP.counted (Nat.le_trans (Roster.Continues.withCouple r king queen).size_le hsize)
    exact ⟨Market.waiting_empty _,
      List.forall_mem_append.2 ⟨h.headcount, List.forall_mem_singleton.2 rfl⟩⟩
  expire := fun hP => ⟨hP.recorded, (settlement_law σ).expire (k := 0) hP.settlement,
    fun hsize => ⟨(hP.counted hsize).waiting.expire, (hP.counted hsize).headcount⟩⟩
  arrive := by
    intro ds k r m a years hP
    refine ⟨(recorded_law σ).arrive (m := m) a years hP.recorded,
      (settlement_law σ).arrive (k := k) a years hP.settlement, fun hsize => ?_⟩
    rw [Roster.size_spawn] at hsize
    obtain ⟨-, ⟨home, hs⟩, -⟩ := hP.settlement (Nat.le_of_succ_le hsize)
    have h := hP.counted (Nat.le_of_succ_le hsize)
    exact ⟨h.waiting.arrive (hs.nextId_not_mem hsize) hsize a years, h.headcount⟩
  turn := by
    intro before behind saga k s year id h h' events hturned hmember hP
    refine ⟨(recorded_law σ).turn hturned hmember hP.recorded,
      (settlement_law σ).turn (k := k) hturned hmember hP.settlement, fun hsize => ?_⟩
    have hbefore := Nat.le_trans hturned.continues.size_le hsize
    obtain ⟨hr, ⟨home, hs⟩, -⟩ := hP.settlement hbefore
    obtain ⟨hwaiting, hcount⟩ := hP.counted hbefore
    rw [List.map_append, List.map_cons] at hs
    refine ⟨hwaiting.turned hturned ?market, forall_mem_turn hcount fun hown => ?_⟩
    case market =>
      -- The one whose turn it is has a house if he lives.
      intro hmem
      have hmarket := (hs.homes.market id hmem).1
      exact hs.not_mem_family hmarket (hmember (hwaiting.alive id hmem))
    have honce : h.dynasty.family.Nodup :=
      hP.recorded.once (h.dynasty, saga) (List.mem_append_right _ List.mem_cons_self)
    have hturn := hturned.headcount hmember hr.numbered hs hsize honce
    dsimp only at hown ⊢
    rw [List.countP_append, List.countP_append, List.countP_append]
    omega

/-! ## Houses apart -/

namespace Settled

variable {home : PersonId → Option PersonId} {ds : List Dynasty} {r : Roster} {m : Market}

/-- Members of one dynasty are no members of another. -/
theorem disjoint (h : Settled home ds r m) :
    ds.Pairwise fun d e => d.family.Disjoint e.family := by
  have hfounders : ds.Pairwise fun d e => d.founder ≠ e.founder :=
    List.pairwise_map.1 h.homes.distinct
  refine hfounders.imp_of_mem fun {d e} hd he hne x hxd hxe => hne ?_
  have hhome := ((h.living d hd x).1 hxd).2
  rw [((h.living e he x).1 hxe).2] at hhome
  exact (Option.some.inj hhome).symm

/-- Members live and are not on the market. -/
theorem member (h : Settled home ds r m) {d : Dynasty} (hd : d ∈ ds) {x : PersonId}
    (hx : x ∈ d.family) : r.isAlive x = true ∧ x ∉ m.persons := by
  obtain ⟨halive, hhome⟩ := (h.living d hd x).1 hx
  refine ⟨halive, fun hmem => ?_⟩
  rw [(h.homes.market x hmem).1] at hhome
  cases hhome

/-- Whoever lives and has ever been married or has parents is in exactly one family. -/
theorem existsUnique_family (h : Settled home ds r m) {x : PersonId} (halive : r.isAlive x = true)
    (hlinked : r.partnersOf x ≠ [] ∨ r.parentsOf x ≠ none) :
    ∃! i : Nat, ∃ d, ds[i]? = some d ∧ x ∈ d.family := by
  obtain ⟨f, hf⟩ : ∃ f, home x = some f := by
    refine Option.ne_none_iff_exists'.1 fun hnone => ?_
    obtain ⟨hlonely, horphan⟩ := h.homes.homeless hnone
    exact hlinked.elim (absurd hlonely) (absurd horphan)
  obtain ⟨d, hd, rfl⟩ := List.mem_map.1 (h.homes.founded hf)
  obtain ⟨i, hi⟩ := List.mem_iff_getElem?.1 hd
  refine ⟨i, ⟨d, hi, (h.living d hd x).2 ⟨halive, hf⟩⟩, ?_⟩
  rintro j ⟨e, hj, hxe⟩
  -- The founder tells the place.
  have hhome := ((h.living e (List.mem_of_getElem? hj) x).1 hxe).2
  rw [hf] at hhome
  have hplaces : (ds.map Dynasty.founder)[j]? = (ds.map Dynasty.founder)[i]? := by
    rw [List.getElem?_map, List.getElem?_map, hi, hj]
    exact hhome.symm
  have hlt : j < (ds.map Dynasty.founder).length := by
    rw [List.length_map]
    exact (List.getElem?_eq_some_iff.1 hj).1
  exact (List.getElem?_inj hlt h.homes.distinct).1 hplaces

end Settled

namespace Census

variable {ds : List ToldDynasty} {k : Nat} {r : Roster} {m : Market}

/-- As long as ids are left, nobody is twice in the families. -/
theorem nodup_families (h : Census ds k r m) (hids : r.size ≤ 2 ^ 32) :
    ((ds.map Prod.fst).flatMap Dynasty.family).Nodup := by
  obtain ⟨-, ⟨home, hs⟩, -⟩ := h.settlement hids
  refine List.nodup_flatMap.2 ⟨fun d hd => ?_, hs.disjoint⟩
  obtain ⟨e, he, rfl⟩ := List.mem_map.1 hd
  exact h.recorded.once e he

/-- As long as ids are left, members live. -/
theorem isAlive_of_mem_families (h : Census ds k r m) (hids : r.size ≤ 2 ^ 32) {x : PersonId}
    (hx : x ∈ (ds.map Prod.fst).flatMap Dynasty.family) : r.isAlive x = true := by
  obtain ⟨-, ⟨home, hs⟩, -⟩ := h.settlement hids
  obtain ⟨d, hd, hmember⟩ := List.mem_flatMap.1 hx
  exact (hs.member hd hmember).1

end Census

/-! ## Any number of steps -/

namespace Simulation

variable {σ : Type} [Dice σ] {s : Simulation σ}

/-- The chapters of a year are added to all that has been told. -/
theorem allEvents_tell {settings : FamilySettings} {year : Year} (ds : List ToldDynasty)
    (hs : List (House σ)) (hlength : ds.length = hs.length) :
    (allEvents (List.zipWith (tell settings year) ds hs)).Perm
      (allEvents ds ++ (hs.map fun h => (h.passYear settings year).1).flatten) := by
  induction ds generalizing hs with
  | nil =>
    rw [List.length_eq_zero_iff.1 hlength.symm]
    exact .refl _
  | cons d rest ih =>
    cases hs with
    | nil => cases hlength
    | cons h hs =>
      have hrest := ih hs (Nat.succ.inj hlength)
      unfold allEvents at hrest ⊢
      rw [List.zipWith_cons_cons, List.flatMap_cons, List.flatMap_cons, List.map_cons,
        List.flatten_cons]
      generalize (List.zipWith (tell settings year) rest hs).flatMap Prod.snd = told at hrest ⊢
      generalize (hs.map fun h => (h.passYear settings year).1).flatten = chapters at hrest ⊢
      unfold tell
      generalize (h.passYear settings year).1 = chapter
      -- The chapter changes places with what has been told of the other dynasties.
      have hswap : (chapter ++ (rest.flatMap Prod.snd ++ chapters)).Perm
          (rest.flatMap Prod.snd ++ (chapter ++ chapters)) := by
        rw [← List.append_assoc, ← List.append_assoc]
        exact List.perm_append_comm.append_right _
      rw [List.append_assoc, List.append_assoc]
      exact ((hrest.append_left chapter).trans hswap).append_left d.2

/-- At the founding nothing has been told. -/
theorem allEvents_sagas_zero (s : Simulation σ) : allEvents (s.sagas 0) = [] := by
  refine List.flatMap_eq_nil_iff.2 fun d hd => ?_
  obtain ⟨i, hi, rfl⟩ := List.mem_mapIdx.1 hd
  rfl

/-- While years are left, the reports tell of the families what the sagas hold. -/
theorem Sound.families_told (h : s.Sound) (htime : s.OnTime) {n : Nat}
    (hn : n ≤ s.clock.remaining) :
    ((s.told n).flatMap Report.families).Perm (allEvents (s.sagas n)) := by
  induction n with
  | zero =>
    rw [allEvents_sagas_zero]
    exact .refl _
  | succ n ih =>
    obtain ⟨hon, -, -⟩ := h.onTime_after htime (Nat.le_of_succ_le hn)
    obtain ⟨⟨report, hreport⟩, -, -⟩ := (h.after n).step_ok hon
    have hchapters := families_report (h.after n).blank hreport
    have hlength : (s.sagas n).length = (s.after n).households.length := by
      have hplaces := congrArg List.length (s.after n).map_dynasty_households
      rw [← map_fst_sagas, List.length_map, List.length_map] at hplaces
      exact hplaces.symm
    rw [told_succ, hreport, List.flatMap_append, sagas_succ]
    refine .trans ?_ (allEvents_tell _ _ hlength).symm
    refine (ih (Nat.le_of_succ_le hn)).append (.of_eq ?_)
    exact (List.flatMap_singleton ..).trans hchapters

/-- After any number of steps every family is a list of different persons; the deaths that have been
told are those of the dead, name by name, year by year and age by age; and the roster holds two
founders for each dynasty, the newborn and whoever has come to the market. As long as no id has been
given out twice, members live, no two families and no family and the market have anybody in common,
nobody is on the market twice, and whoever is lives and has neither partners nor parents; whoever
lives and has either is in exactly one family; and a family has as many members as its founders,
weddings and births less its deaths. A saga tells of its dynasty, and while years are left the
reports hold what the sagas hold. -/
theorem census_after (c : Config) (catalog : Catalog) (dice : σ) (n : Nat) :
    let s := ofConfig c catalog dice
    let ds := (s.after n).dynasties
    let r := (s.after n).roster
    let m := (s.after n).market
    let events := allEvents (s.sagas n)
    (∀ d ∈ ds, d.family.Nodup) ∧
    (events.filterMap FamilyEvent.obituary?).Perm r.obituaries ∧
    r.size = 2 * ds.length + events.countP FamilyEvent.isBirth + (s.arrivals n).length ∧
    (r.size ≤ 2 ^ 32 →
      (∀ d ∈ ds, ∀ x ∈ d.family, r.isAlive x = true ∧ x ∉ m.persons) ∧
      ds.Pairwise (fun d e => d.family.Disjoint e.family) ∧
      m.persons.Nodup ∧
      (∀ x ∈ m.persons, r.isAlive x = true ∧ r.partnersOf x = [] ∧ r.parentsOf x = none) ∧
      (∀ x, r.isAlive x = true → r.partnersOf x ≠ [] ∨ r.parentsOf x ≠ none →
        ∃! i : Nat, ∃ d, ds[i]? = some d ∧ x ∈ d.family) ∧
      ∀ (i : Nat) (d : Dynasty), ds[i]? = some d →
        d.family.length + (s.saga i n).countP FamilyEvent.isDeath =
          2 + (s.saga i n).countP FamilyEvent.isMarriage +
            (s.saga i n).countP FamilyEvent.isBirth) ∧
    (∀ (i : Nat) (d : Dynasty), ds[i]? = some d → ∀ e ∈ s.saga i n, e.dynasty = d.name) ∧
    (∀ report, (s.after n).step.1 = .ok report →
      report.families = (s.after n).chapters.flatten) ∧
    (catalog.Loaded → n ≤ s.clock.remaining →
      ((s.told n).flatMap Report.families).Perm events) := by
  intro s ds r m events
  have h := (census_law σ).after c catalog dice n
  have hds : (s.sagas n).map Prod.fst = ds := map_fst_sagas s n
  have hlength : (s.sagas n).length = ds.length := by rw [← hds, List.length_map]
  refine ⟨fun d hd => ?_, h.recorded.dead.symm, ?_, fun hids => ?_, ?_, ?_, ?_⟩
  · rw [← hds] at hd
    obtain ⟨e, he, rfl⟩ := List.mem_map.1 hd
    exact h.recorded.once e he
  · rw [← hlength]
    exact h.recorded.size
  · obtain ⟨-, ⟨home, hs⟩, -⟩ := h.settlement hids
    obtain ⟨hwaiting, hcount⟩ := h.counted hids
    rw [map_fst_sagas] at hs
    refine ⟨fun d hd x hx => hs.member hd hx, hs.disjoint, hwaiting.once, fun x hx => ?_,
      fun x halive hlinked => hs.existsUnique_family halive hlinked, fun i d hd => ?_⟩
    · exact ⟨hwaiting.alive x hx, hs.homes.homeless (hs.homes.market x hx).1⟩
    · refine hcount (d, s.saga i n) (List.mem_of_getElem? (i := i) ?_)
      have hi : (s.after n).dynasties[i]? = some d := hd
      exact List.getElem?_mapIdx.trans (by rw [hi]; rfl)
  · exact (chronicled c catalog dice n).told
  · intro report hreport
    exact families_report (book_after rfl n) hreport
  · intro hcat hn
    exact (sound_ofConfig c hcat dice).families_told (onTime_ofConfig c catalog dice) hn

/-- A configuration in which nobody lives beyond thirty years, and whatever can happen by chance
happens. -/
def brisk : Config :=
  { family :=
    { ageing := { maxBaseAge := 30, maxAgeBonus := 0 }
      marriage := { newCandidateChance := 1, baseChance := 1, maxChance := 1 }
      childbirth := { chance := 1 } } }

/-- In three years the founding king has died without an heir, the queen has married again, and two
children have been born: five events in the reports. The roster holds the founders, the children and
three arrivals. -/
theorem census_after_brisk :
    let s := ofConfig brisk .empty (Generator.seeded 2)
    let r := (s.after 3).roster
    r.size = 7 ∧ r.size ≤ 2 ^ 32 ∧ r.obituaries = [{ name := "Fenris", year := 1000, age := 38 }] ∧
    ∃ d, (s.after 3).dynasties[0]? = some d ∧ d.family.Nodup ∧ d.family.length = 4 ∧
      (∀ x ∈ d.family, r.isAlive x = true ∧ x ∉ (s.after 3).market.persons) ∧
      (∀ x ∈ (s.after 3).market.persons, r.partnersOf x = []) ∧
      ((s.told 3).flatMap Report.families).length = 5 := by
  intro s r
  obtain ⟨honce, hdead, hsize, hplaces, -, -, hreports⟩ :=
    census_after brisk .empty (Generator.seeded 2) 3
  have hreported := (hreports Catalog.empty_loaded (by decide +kernel)).length_eq
  have htold : (s.after 3).dynasties.length = 1 ∧ (s.arrivals 3).length = 3 ∧
      (allEvents (s.sagas 3)).filterMap FamilyEvent.obituary? =
        [{ name := "Fenris", year := 1000, age := 38 }] ∧
      (allEvents (s.sagas 3)).countP FamilyEvent.isBirth = 2 ∧
      (allEvents (s.sagas 3)).length = 5 := by decide +kernel
  have hsaga : (s.saga 0 3).countP FamilyEvent.isDeath = 1 ∧
      (s.saga 0 3).countP FamilyEvent.isMarriage = 1 ∧
      (s.saga 0 3).countP FamilyEvent.isBirth = 2 := by decide +kernel
  obtain ⟨hone, harrivals, hobituaries, hbirths, hall⟩ := htold
  have hseven : r.size = 7 := by rw [hsize, hone, hbirths, harrivals]
  have hids : r.size ≤ 2 ^ 32 := by
    rw [hseven]
    decide
  obtain ⟨hmembers, -, -, hwaiting, -, hcount⟩ := hplaces hids
  obtain ⟨d, hd⟩ : ∃ d, (s.after 3).dynasties[0]? = some d :=
    ⟨_, List.getElem?_eq_getElem (Nat.lt_of_lt_of_eq Nat.one_pos hone.symm)⟩
  have hmem := List.mem_of_getElem? hd
  have hlength := hcount 0 d hd
  rw [hsaga.1, hsaga.2.1, hsaga.2.2] at hlength
  rw [hobituaries] at hdead
  exact ⟨hseven, hids, List.perm_singleton.1 hdead.symm, d, hd, honce d hmem,
    Nat.succ.inj hlength, hmembers d hmem, fun x hx => (hwaiting x hx).2.1,
    hreported.trans hall⟩

/-- With one dynasty more than there are ids for founders, the first and the last family have their
members in common from the beginning. -/
theorem census_of_crowd :
    ¬ ((ofConfig (crowded {} (2 ^ 31 + 1)) .empty (Generator.seeded 42)).after 0).dynasties.Pairwise
      fun d e => d.family.Disjoint e.family := by
  have hcrowd : 2 ^ 31 < (crowded {} (2 ^ 31 + 1)).run.dynasties.length := by
    rw [length_crowded]
    decide
  exact families_meet hcrowd .empty (Generator.seeded 42)

end Simulation

end Annals
