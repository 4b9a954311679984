import Annals.Proofs.Family.Accounts
import Annals.Proofs.Family.Crown
import Annals.Proofs.Family.Succession
import Annals.Proofs.Simulation.Chapters
import Annals.Proofs.Simulation.Lineage
/-!
# Monarchs over the years

Whoever reigns has been crowned: as a founder or as an heir. The saga of a dynasty tells of every
handover, and as long as ids are left, the monarch is a living member of the family.

* `Simulation.successors`: the heirs of a number of steps.
* `Simulation.passed_step`: what a step does to the crowns.
* `Simulation.Chronicled`: what the sagas and the successors say of the present monarchs.
* `Simulation.settled_law`: every move of family life leaves everyone in a house and the monarchs in
  their families.
* `Simulation.crowns_after`: what is known of crowns after any number of steps.
* `Simulation.dead_founder_reigns`: a dead monarch where there are more founders than ids.
-/

namespace Annals.Simulation

variable {σ : Type} [Dice σ]

/-! ## A year of all dynasties -/

/-- What a year of houses does to the crowns. -/
structure YearPassed (settings : FamilySettings) (year : Year) (hs : List (House σ)) (r : Roster)
    (ds : List Dynasty) (r' : Roster) : Prop where
  ruled : Ruled ds r'
  continues : r.Continues r'
  /-- The roster of each house is one on the way. -/
  between : ∀ h ∈ hs, Ruled [h.dynasty] h.roster ∧ r.Continues h.roster ∧
    (h.passYear settings year).2.roster.Continues r'
  reigned : ∀ x, r'.hasReigned x = true ↔
    r.hasReigned x = true ∨ x ∈ hs.flatMap (House.heirs settings year)

/-- The dynasties whose turn comes later keep their monarchs crowned. -/
theorem ruled_rest (settings : FamilySettings) (year : Year) (h : House σ) {rest : List Dynasty}
    (hr : Ruled (h.dynasty :: rest) h.roster) :
    Ruled rest (h.passYear settings year).2.roster := by
  have hh : Ruled [h.dynasty] h.roster :=
    ⟨hr.numbered, fun e he => hr.reigned e (List.mem_singleton.1 he ▸ List.mem_cons_self)⟩
  have hp := House.passed_passYear settings year hh
  refine ⟨hp.ruled.numbered, fun e he x hx => ?_⟩
  exact (hp.reigned x).2 (.inl (hr.reigned e (List.mem_cons_of_mem h.dynasty he) x hx))

theorem yearPassed_houses (settings : FamilySettings) (year : Year) (ds : List Dynasty)
    {r : Roster} (m : Market) (dice : σ) (hr : Ruled ds r) :
    YearPassed settings year (houses settings year ds r m dice) r
      (passHouses settings year ds r m dice).2.1 (passHouses settings year ds r m dice).2.2.1 := by
  induction ds generalizing r m dice with
  | nil =>
    exact ⟨hr, .refl r, List.forall_mem_nil _, fun x => ⟨.inl, fun h => h.elim id (nomatch ·)⟩⟩
  | cons d rest ih =>
    let h : House σ := ⟨d, r, m, dice⟩
    let next := (h.passYear settings year).2
    have hh : Ruled [h.dynasty] h.roster :=
      ⟨hr.numbered, fun e he => hr.reigned e (List.mem_singleton.1 he ▸ List.mem_cons_self)⟩
    have hp := House.passed_passYear settings year hh
    have hyear := ih next.market next.dice (ruled_rest settings year h hr)
    refine ⟨⟨hyear.ruled.numbered, ?_⟩, hp.continues.trans hyear.continues, ?_, fun x => ?_⟩
    · intro e he x hx
      rcases List.mem_cons.1 he with rfl | he
      · have hnow := hp.ruled.reigned next.dynasty List.mem_cons_self x hx
        exact (hyear.reigned x).2 (.inl hnow)
      · exact hyear.ruled.reigned e he x hx
    · refine List.forall_mem_cons.2 ⟨⟨hh, .refl r, hyear.continues⟩, fun e he => ?_⟩
      obtain ⟨hruled, hbefore, hafter⟩ := hyear.between e he
      exact ⟨hruled, hp.continues.trans hbefore, hafter⟩
    · show _ ↔ r.hasReigned x = true ∨
        x ∈ (h :: houses settings year rest next.roster next.market next.dice).flatMap _
      rw [List.flatMap_cons, List.mem_append, ← or_assoc, ← hp.reigned]
      exact hyear.reigned x

/-! ## A step -/

/-- The heirs of the next year. -/
def heirs (s : Simulation σ) : List PersonId :=
  s.households.flatMap (House.heirs s.settings s.clock.year)

/-- The heirs of a number of steps. -/
def successors (s : Simulation σ) : Nat → List PersonId
  | 0 => []
  | n + 1 => s.successors n ++ (s.after n).heirs

/-- A year on the market crowns nobody. -/
theorem ruled_passMarket {s : Simulation σ} (hr : Ruled s.dynasties s.roster) :
    Ruled s.dynasties s.passMarket.roster ∧ s.roster.Continues s.passMarket.roster ∧
      ∀ x, s.passMarket.roster.hasReigned x = s.roster.hasReigned x := by
  obtain ⟨hlater, hnumbered, hreigned⟩ : s.roster.Continues s.passMarket.roster ∧
      s.passMarket.roster.Numbered ∧
      ∀ x, s.passMarket.roster.hasReigned x = s.roster.hasReigned x := by
    unfold passMarket
    rcases s.market.update_cases s.settings s.clock.year s.roster s.dice with
      ⟨dice, heq⟩ | ⟨arrival, dice, heq⟩
    · rw [heq]
      exact ⟨.refl s.roster, hr.numbered, fun _ => rfl⟩
    · rw [heq]
      exact ⟨.spawn s.roster arrival, hr.numbered.spawn arrival,
        Roster.hasReigned_spawn s.roster arrival⟩
  refine ⟨⟨hnumbered, fun d hd x hx => ?_⟩, hlater, hreigned⟩
  rw [hreigned]
  exact hr.reigned d hd x hx

/-- What a step does to the crowns. -/
theorem passed_step {s : Simulation σ} (hr : Ruled s.dynasties s.roster) :
    YearPassed s.settings s.clock.year s.households s.roster s.step.2.dynasties
      s.step.2.roster := by
  -- The market comes first.
  obtain ⟨hr', hlater, hreigned⟩ := ruled_passMarket hr
  have hyear := yearPassed_houses s.settings s.clock.year s.dynasties s.passMarket.market
    s.passMarket.dice hr'
  obtain ⟨hdynasties, hroster, -, -⟩ := s.families_step
  rw [hdynasties, hroster]
  refine ⟨hyear.ruled, hlater.trans hyear.continues, fun h hh => ?_, fun x => ?_⟩
  · obtain ⟨hruled, hbefore, hafter⟩ := hyear.between h hh
    exact ⟨hruled, hlater.trans hbefore, hafter⟩
  · rw [← hreigned]
    exact hyear.reigned x

/-! ## All steps -/

/-- The founders, and nobody else, have been crowned. -/
structure Founded (ds : List Dynasty) (r : Roster) : Prop where
  ruled : Ruled ds r
  monarchs : ∀ d ∈ ds, d.monarch = some d.founder
  reigned : ∀ x, r.hasReigned x = true ↔ x ∈ ds.map Dynasty.founder

theorem Founded.withCouple {ds : List Dynasty} {r : Roster} (h : Founded ds r) (name : String)
    (king queen : Roster.Arrival) :
    Founded (ds ++ [.ofCouple name r.nextId (r.spawn king).2.nextId])
      (r.withCouple king queen) := by
  have hreigned := r.hasReigned_withCouple king queen
  refine ⟨⟨h.ruled.numbered.withCouple king queen, fun d hd x hx => ?_⟩, fun d hd => ?_,
    fun x => ?_⟩
  · rw [hreigned]
    rcases List.mem_append.1 hd with hd | hd
    · exact .inl (h.ruled.reigned d hd x hx)
    · rw [List.mem_singleton.1 hd] at hx
      exact .inr (Option.some.inj hx).symm
  · rcases List.mem_append.1 hd with hd | hd
    · exact h.monarchs d hd
    · rw [List.mem_singleton.1 hd]
      rfl
  · rw [hreigned, h.reigned, List.map_append, List.mem_append]
    exact or_congr_right List.mem_singleton.symm

theorem founded_ofConfig (c : Config) (catalog : Catalog) (dice : σ) :
    Founded (ofConfig c catalog dice).dynasties (ofConfig c catalog dice).roster := by
  have hnone : Founded [] .empty := by
    refine ⟨⟨Roster.numbered_empty, List.forall_mem_nil _⟩, List.forall_mem_nil _, fun x => ?_⟩
    exact ⟨fun h => (Bool.false_ne_true h).elim, fun h => (List.not_mem_nil h).elim⟩
  refine ofConfig_induction ?_ hnone c catalog dice
  intro ds r name king queen hking hqueen h
  exact h.withCouple name king queen

/-- The present monarchs, as sagas and successors tell of them. -/
structure Chronicled (s : Simulation σ) (n : Nat) : Prop where
  ruled : Ruled (s.after n).dynasties (s.after n).roster
  founders : (s.after n).dynasties.map Dynasty.founder = s.dynasties.map Dynasty.founder
  reigned : ∀ x, (s.after n).roster.hasReigned x = true ↔
    x ∈ s.dynasties.map Dynasty.founder ∨ x ∈ s.successors n
  reign : ∀ (i : Nat) (d : Dynasty), (s.after n).dynasties[i]? = some d →
    Reign (some ((s.after n).roster.nameOf d.founder)) ((s.saga i n).map FamilyEvent.deed)
      (d.monarch.map (s.after n).roster.nameOf)
  told : ∀ (i : Nat) (d : Dynasty), (s.after n).dynasties[i]? = some d →
    ∀ e ∈ s.saga i n, e.dynasty = d.name

theorem Founded.chronicled {s : Simulation σ} (h : Founded s.dynasties s.roster) :
    Chronicled s 0 where
  ruled := h.ruled
  founders := rfl
  reigned := by
    intro x
    rw [show s.successors 0 = [] from rfl]
    simpa using h.reigned x
  reign := by
    intro i d hd
    have hmonarch : d.monarch = some d.founder := h.monarchs d (List.mem_of_getElem? hd)
    rw [hmonarch]
    exact .done _
  told := fun _ _ _ _ he => absurd he List.not_mem_nil

/-- A step adds its chapters to the sagas and its heirs to the successors. -/
theorem Chronicled.succ {s : Simulation σ} {n : Nat} (h : Chronicled s n) :
    Chronicled s (n + 1) := by
  have hstep := passed_step h.ruled
  have hfounders : (s.after n).step.2.dynasties.map Dynasty.founder =
      (s.after n).dynasties.map Dynasty.founder := by
    rw [dynasties_step, ← map_dynasty_households, List.map_map, List.map_map]
    refine List.map_congr_left fun house hhouse => ?_
    have hruled := (hstep.between house hhouse).1
    exact (House.passed_passYear _ _ hruled).founder
  refine ⟨hstep.ruled, hfounders.trans h.founders, fun x => ?_, fun i d hd => ?_,
    fun i d hd e he => ?_⟩
  · show _ ↔ _ ∨ x ∈ s.successors n ++ (s.after n).heirs
    rw [after_succ, hstep.reigned, h.reigned, List.mem_append, or_assoc]
    rfl
  · obtain ⟨house, hhouse, hplace, rfl, hchapter⟩ := exists_household hd
    obtain ⟨hruled, hbefore, hafter⟩ := hstep.between house hhouse
    have hpassed := House.passed_passYear (s.after n).settings (s.after n).clock.year hruled
    have hmem := List.mem_of_getElem? hplace
    -- The founder and the monarchs keep their names from roster to roster.
    have hcrowned : (s.after n).roster.hasReigned house.dynasty.founder = true :=
      (h.reigned _).2 (.inl (h.founders ▸ List.mem_map_of_mem hmem))
    obtain ⟨p, hp⟩ := Roster.exists_of_hasReigned hcrowned
    have hfirst := h.reign i house.dynasty hplace
    have hnow : house.monarchName = house.dynasty.monarch.map (s.after n).roster.nameOf :=
      h.ruled.map_nameOf hbefore hmem
    rw [← hnow] at hfirst
    -- The saga so far ends with the monarch with whom the chapter begins.
    have hlast := hpassed.ruled.map_nameOf hafter List.mem_cons_self
    have hsaga : s.saga i (n + 1) =
        s.saga i n ++ (house.passYear (s.after n).settings (s.after n).clock.year).1 := by
      show s.saga i n ++ ((s.after n).chapters[i]?).getD [] = _
      rw [hchapter]
      rfl
    rw [after_succ, hsaga, List.map_append, hlast, hpassed.founder, hstep.continues.nameOf hp]
    exact hfirst.append hpassed.reign
  · obtain ⟨house, hhouse, hplace, rfl, hchapter⟩ := exists_household hd
    have hruled := (hstep.between house hhouse).1
    have hpassed := House.passed_passYear (s.after n).settings (s.after n).clock.year hruled
    rw [hpassed.name]
    have he' : e ∈ s.saga i n ++ ((s.after n).chapters[i]?).getD [] := he
    rw [hchapter, List.mem_append] at he'
    rcases he' with hold | hnew
    · exact h.told i house.dynasty hplace e hold
    · exact hpassed.told e hnew

theorem chronicled (c : Config) (catalog : Catalog) (dice : σ) (n : Nat) :
    Chronicled (ofConfig c catalog dice) n := by
  induction n with
  | zero => exact (founded_ofConfig c catalog dice).chronicled
  | succ n ih => exact ih.succ

/-- A line that has ended stays ended. -/
theorem ended_after {s : Simulation σ} (hs : ∀ n, Ruled (s.after n).dynasties (s.after n).roster)
    {i n k : Nat} {d d' : Dynasty} (hd : (s.after n).dynasties[i]? = some d)
    (hd' : (s.after (n + k)).dynasties[i]? = some d') (hnone : d.monarch = none) :
    d'.monarch = none := by
  induction k generalizing d' with
  | zero =>
    rw [Nat.add_zero, hd] at hd'
    cases hd'
    exact hnone
  | succ k ih =>
    obtain ⟨house, hhouse, hplace, rfl, -⟩ := exists_household hd'
    have hruled := ((passed_step (hs (n + k))).between house hhouse).1
    exact (House.passed_passYear _ _ hruled).ended (ih hplace)

/-! ## Members -/

/-- As long as ids are left, every move of family life leaves everyone in a house and every monarch
in the family. -/
theorem settled_law : FamilyLaw σ fun ds r m => r.size ≤ 2 ^ 32 →
    r.Genealogy ∧ (∃ home, Settled home ds r m) ∧ ∀ d ∈ ds, d.Enthroned where
  start := fun _ => ⟨Roster.genealogy_empty, ⟨_, .empty⟩, fun _ h => absurd h List.not_mem_nil⟩
  found := by
    intro ds r name king queen hking hqueen hP hsize
    obtain ⟨hr, ⟨home, hs⟩, hthrones⟩ :=
      hP (Nat.le_trans (Roster.Continues.withCouple r king queen).size_le hsize)
    refine ⟨hr.withCouple hking hqueen hsize, hs.withCouple hr name hking hqueen hsize, ?_⟩
    intro d hd
    rcases List.mem_append.1 hd with hd | hd
    · exact hthrones d hd
    · rw [List.mem_singleton.1 hd]
      intro x hx
      rw [← Option.some.inj hx]
      exact List.mem_cons_self
  expire := by
    intro ds r m hP hsize
    obtain ⟨hr, ⟨home, hs⟩, hthrones⟩ := hP hsize
    exact ⟨hr, ⟨home, hs.market_mono (m.persons_expire r)⟩, hthrones⟩
  arrive := by
    intro ds r m a years hP hsize
    obtain ⟨hr, ⟨home, hs⟩, hthrones⟩ :=
      hP (Nat.le_trans (Roster.Continues.spawn r a).size_le hsize)
    rw [Roster.size_spawn] at hsize
    exact ⟨hr.spawn a, ⟨home, hs.arrive hsize a years⟩, hthrones⟩
  turn := by
    intro before behind s year id h h' events hturned hmember hP hsize
    obtain ⟨hr, ⟨home, hs⟩, hthrones⟩ :=
      hP (Nat.le_trans hturned.continues.size_le hsize)
    have hthrone := hthrones h.dynasty (List.mem_append_right _ List.mem_cons_self)
    refine ⟨hr.turned hturned hsize, hs.turned hturned hmember hr hsize, ?_⟩
    exact forall_mem_replace hthrones (fun _ _ he => he) (hthrone.turned hturned hmember hr hs)

/-- As long as ids are left, the monarch is a living member of the family. -/
theorem monarch_lives (c : Config) (catalog : Catalog) (dice : σ) {n : Nat} {d : Dynasty}
    {x : PersonId} (hids : ((ofConfig c catalog dice).after n).roster.size ≤ 2 ^ 32)
    (hd : d ∈ ((ofConfig c catalog dice).after n).dynasties) (hx : d.monarch = some x) :
    ((ofConfig c catalog dice).after n).roster.isAlive x = true ∧ x ∈ d.family := by
  obtain ⟨-, ⟨home, hs⟩, hthrones⟩ := settled_law.after c catalog dice n hids
  have hmember := hthrones d hd x hx
  exact ⟨((hs.living d hd x).1 hmember).1, hmember⟩

/-- After any number of steps every monarch has been crowned and, as long as no id has been given
out twice, lives and is a member of the family; a line that has ended stays ended; the founding
kings and the successors, and nobody else, have been crowned. In the saga of a dynasty each handover
stands right behind the death of the old monarch, the first one names the founding king, each later
one the new monarch of the one before, and nothing follows the end of the line. The reports tell of
the families what the sagas hold. -/
theorem crowns_after (c : Config) (catalog : Catalog) (dice : σ) (n : Nat) :
    let s := ofConfig c catalog dice
    let r := (s.after n).roster
    (∀ d ∈ s.dynasties, d.monarch = some d.founder) ∧
    (s.after n).dynasties.map Dynasty.founder = s.dynasties.map Dynasty.founder ∧
    (∀ d ∈ (s.after n).dynasties, ∀ x, d.monarch = some x →
      r.hasReigned x = true ∧ (r.size ≤ 2 ^ 32 → r.isAlive x = true ∧ x ∈ d.family)) ∧
    (∀ (i k : Nat) (d d' : Dynasty), (s.after n).dynasties[i]? = some d →
      (s.after (n + k)).dynasties[i]? = some d' → d.monarch = none → d'.monarch = none) ∧
    (∀ x, r.hasReigned x = true ↔ x ∈ s.dynasties.map Dynasty.founder ∨ x ∈ s.successors n) ∧
    (∀ (i : Nat) (d : Dynasty), (s.after n).dynasties[i]? = some d →
      let deeds := (s.saga i n).map FamilyEvent.deed
      let handovers := deeds.filterMap FamilyDeed.handover?
      (∀ before deed behind monarch next, deeds = before ++ deed :: behind →
        deed.handover? = some (monarch, next) →
        ∃ init age, before = init ++ [.death monarch age]) ∧
      (∀ first ∈ handovers.head?, first.1 = r.nameOf d.founder) ∧
      List.IsChain Reign.Follows handovers ∧
      (∀ earlier monarch later, handovers = earlier ++ (monarch, none) :: later → later = []) ∧
      ∀ e ∈ s.saga i n, e.dynasty = d.name) ∧
    (∀ report, (s.after n).step.1 = .ok report →
      report.families = (s.after n).chapters.flatten) := by
  intro s r
  have h := chronicled c catalog dice n
  refine ⟨?_, h.founders, ?_, ?_, h.reigned, ?_, ?_⟩
  · exact (founded_ofConfig c catalog dice).monarchs
  · intro d hd x hx
    exact ⟨h.ruled.reigned d hd x hx, fun hids => monarch_lives c catalog dice hids hd hx⟩
  · intro i k d d' hd hd' hnone
    exact ended_after (fun n => (chronicled c catalog dice n).ruled) hd hd' hnone
  · intro i d hd deeds handovers
    have hreign := h.reign i d hd
    -- The founding stands in front of the handovers, without an old monarch.
    obtain ⟨hfirst, hchain⟩ := List.isChain_cons.1 (hreign.chain "")
    refine ⟨?_, ?_, hchain, ?_, h.told i d hd⟩
    · intro before deed behind monarch next hsplit hdeed
      exact hreign.death_before hsplit hdeed
    · intro first hmem
      exact (Option.some.inj (hfirst first hmem)).symm
    · intro earlier monarch later hsplit
      have hchain' : List.IsChain Reign.Follows handovers := hchain
      rw [hsplit] at hchain'
      exact Reign.eq_nil_of_end hchain'
  · intro report hreport
    exact families_report (book_after rfl n) hreport

/-- A configuration in which nobody grows old and no outsider comes. -/
def mortal : Config :=
  { family :=
    { ageing := { maxBaseAge := 40, maxAgeBonus := 0 }
      marriage := { newCandidateChance := 0 }
      childbirth := { maxAge := 22 } } }

/-- After twenty-two years the elder of two sons has followed the founder. After forty-three years
the line has ended, and it does not begin again. -/
theorem crowns_after_mortal :
    let s := ofConfig mortal .empty Rules.still
    (s.after 22).roster.size ≤ 2 ^ 32 ∧ s.successors 22 = [⟨2⟩] ∧
    (∃ d, (s.after 22).dynasties[0]? = some d ∧ d.monarch = some ⟨2⟩ ∧ ⟨2⟩ ∈ d.family ∧
      (s.after 22).roster.isAlive ⟨2⟩ = true ∧ (s.after 22).roster.hasReigned ⟨2⟩ = true ∧
      "Baelor" = (s.after 22).roster.nameOf d.founder) ∧
    (∃ d, (s.after 43).dynasties[0]? = some d ∧ d.monarch = none ∧
      ∀ d', (s.after 44).dynasties[0]? = some d' → d'.monarch = none) := by
  intro s
  have hcrowned : (s.after 22).roster.size ≤ 2 ^ 32 ∧ s.successors 22 = [⟨2⟩] ∧
      ((s.after 22).dynasties[0]?).map Dynasty.monarch = some (some ⟨2⟩) ∧
      (((s.saga 0 22).map FamilyEvent.deed).filterMap FamilyDeed.handover?).head? =
        some ("Baelor", some "Baelor") := by decide +kernel
  have hended : ((s.after 43).dynasties[0]?).map Dynasty.monarch = some none := by decide +kernel
  obtain ⟨hids, hheirs, hnow, hlog⟩ := hcrowned
  obtain ⟨d, hd, hmonarch⟩ := Option.map_eq_some_iff.1 hnow
  obtain ⟨e, he, hnone⟩ := Option.map_eq_some_iff.1 hended
  obtain ⟨-, -, hmonarchs, -, -, hsagas, -⟩ := crowns_after mortal .empty Rules.still 22
  obtain ⟨-, -, -, hstays, -, -, -⟩ := crowns_after mortal .empty Rules.still 43
  obtain ⟨hreigned, hlives⟩ := hmonarchs d (List.mem_of_getElem? hd) ⟨2⟩ hmonarch
  obtain ⟨halive, hmember⟩ := hlives hids
  have hfirst := (hsagas 0 d hd).2.1 _ hlog
  exact ⟨hids, hheirs, ⟨d, hd, hmonarch, hmember, halive, hreigned, hfirst⟩,
    ⟨e, he, hnone, fun d' hd' => hstays 0 1 e d' he hd' hnone⟩⟩

/-- No member survives the own turn beyond the greatest age. -/
theorem isDead_of_old (settings : FamilySettings) (year : Year) {h : House σ} {x : PersonId}
    {p : Person} (honce : h.dynasty.family.Nodup) (hmember : x ∈ h.dynasty.family)
    (hp : h.roster.get? x = some p)
    (hold : settings.ageing.maxBaseAge.toInt + max 0 settings.ageing.maxAgeBonus.toInt <
      (year - p.birthYear).toInt) :
    (h.passYear settings year).2.roster.isAlive x = false := by
  rw [Bool.eq_false_iff]
  intro halive
  obtain ⟨q, hq, hlives⟩ := Roster.exists_of_isAlive halive
  obtain ⟨-, hlimit⟩ := House.limits_passMembers settings year honce hmember hp hq hlives
  have hbirth :=
    ((House.continues_passMembers settings year h.dynasty.family h).becomes hp hq).birthYear
  unfold Person.age at hlimit
  rw [Option.isNone_iff_eq_none.1 hlives, hbirth] at hlimit
  exact absurd hold (Int.not_lt.2 hlimit)

/-- A monarch who dies as a member of the first house, too old for the year, keeps a crown that is
worn in a later one. -/
theorem dead_monarch_of_houses {settings : FamilySettings} {year : Year} {d e : Dynasty}
    {rest : List Dynasty} {r : Roster} (m : Market) (dice : σ) {x : PersonId} {p : Person}
    (hr : Ruled (d :: rest) r) (honce : d.family.Nodup) (hmember : x ∈ d.family) (he : e ∈ rest)
    (hmonarch : e.monarch = some x) (hp : r.get? x = some p)
    (hold : settings.ageing.maxBaseAge.toInt + max 0 settings.ageing.maxAgeBonus.toInt <
      (year - p.birthYear).toInt) :
    let passed := passHouses settings year (d :: rest) r m dice
    (∃ d' ∈ passed.2.1, d'.monarch = some x) ∧ passed.2.2.1.isAlive x = false := by
  intro passed
  let h : House σ := ⟨d, r, m, dice⟩
  let next := (h.passYear settings year).2
  have hyear := yearPassed_houses settings year rest next.market next.dice
    (ruled_rest settings year h hr)
  have hdead : next.roster.isAlive x = false :=
    isDead_of_old settings year (h := h) honce hmember hp hold
  have hknows : next.roster.Knows x :=
    (House.continues_passMembers settings year d.family h).knows ⟨p, hp⟩
  obtain ⟨house, hhouse, rfl⟩ : ∃ house ∈ houses settings year rest next.roster next.market
      next.dice, house.dynasty = e := by
    have hsame : (houses settings year rest next.roster next.market next.dice).map House.dynasty =
        rest := map_dynasty_houses ..
    rw [← hsame] at he
    exact List.mem_map.1 he
  obtain ⟨hruled, hbefore, -⟩ := hyear.between house hhouse
  have hseat : house.dynasty.Seated house.roster := by
    intro y hy
    rw [hmonarch] at hy
    cases hy
    exact hbefore.knows hknows
  -- The year of the later house meets a dead monarch and hands nothing over.
  have hlost : ¬ CrownLives house.dynasty house.roster := by
    intro hlives
    have halive := hlives x hmonarch
    rw [hbefore.isDead_of_knows hknows hdead] at halive
    cases halive
  refine ⟨⟨(house.passYear settings year).2.dynasty, ?_, ?_⟩,
    hyear.continues.isDead_of_knows hknows hdead⟩
  · refine List.mem_cons_of_mem next.dynasty ?_
    show _ ∈ (passHouses settings year rest next.roster next.market next.dice).2.1
    rw [(passHouses_eq rest next.roster next.market next.dice).2]
    exact List.mem_map_of_mem hhouse
  · have hcarried := House.carried_passMembers settings year house.dynasty.family hruled.numbered
      hseat
    exact (hcarried.dead hlost).1.trans hmonarch

/-- Where there are more dynasties than ids for founders and none of these survives the year, a dead
one reigns after it. -/
theorem dead_founder_reigns {s : Simulation σ} (hcouples : Dynasty.Couples s.dynasties s.roster)
    (hcrowd : 2 ^ 31 < s.dynasties.length) (hruled : Ruled s.dynasties s.roster)
    (hfounded : s.roster.Founded s.clock.year)
    (hlimit : s.settings.ageing.maxBaseAge.toInt + max 0 s.settings.ageing.maxAgeBonus.toInt < 20) :
    (∃ d ∈ s.step.2.dynasties, d.monarch = some ⟨0⟩) ∧ s.step.2.roster.isAlive ⟨0⟩ = false := by
  obtain ⟨hruled', hlater, -⟩ := ruled_passMarket hruled
  obtain ⟨hdynasties, hroster, -, -⟩ := s.families_step
  have hhouses : s.passMarket.passDynasties.dynasties = (passHouses s.settings s.clock.year
        s.dynasties s.passMarket.roster s.passMarket.market s.passMarket.dice).2.1 ∧
      s.passMarket.passDynasties.roster = (passHouses s.settings s.clock.year
        s.dynasties s.passMarket.roster s.passMarket.market s.passMarket.dice).2.2.1 := ⟨rfl, rfl⟩
  rw [hdynasties, hroster, hhouses.1, hhouses.2]
  obtain ⟨p, hp⟩ : ∃ p, s.roster.get? ⟨0⟩ = some p := by
    refine Roster.exists_of_lt_size ?_
    rw [hcouples.size]
    exact Nat.mul_pos Nat.two_pos (Nat.zero_lt_of_lt hcrowd)
  obtain ⟨q, hq, hbecomes⟩ := hlater.stays hp
  obtain ⟨hyoung, hold, -⟩ := hfounded.persons hp
  have hage : (s.clock.year - q.birthYear).toInt = s.clock.year.toInt - p.birthYear.toInt := by
    rw [hbecomes.birthYear]
    exact Operation.toInt_sub (Operation.inRange_sub.2 (by omega))
  obtain ⟨e, he⟩ : ∃ e, s.dynasties[0 + 2 ^ 31]? = some e :=
    ⟨_, List.getElem?_eq_getElem (by omega)⟩
  cases hds : s.dynasties with
  | nil =>
    rw [hds] at he
    cases he
  | cons d rest =>
    rw [hds] at hruled' hcouples he
    have hd := hcouples.place (i := 0) (d := d) rfl
    have hsame := Dynasty.founders_repeat (i := 0) hcouples rfl he
    have hlast : e ∈ rest := by
      rw [List.getElem?_cons, if_neg (by decide)] at he
      exact List.mem_of_getElem? he
    refine dead_monarch_of_houses s.passMarket.market s.passMarket.dice hruled' ?_ ?_ hlast ?_ hq ?_
    · rw [hd]
      show [_, _].Nodup
      decide
    · rw [hd]
      exact List.mem_cons_self
    · rw [hsame, hd]
      rfl
    · rw [hage]
      omega

/-- So it is in the first year of a simulation. -/
theorem dead_founder_reigns_after {c : Config} (hcrowd : 2 ^ 31 < c.run.dynasties.length)
    (hstart : -2 ^ 31 + 40 ≤ c.run.startYear.toInt)
    (hhealth : c.family.ageing.initialHealth = 100)
    (hlimit : c.family.ageing.maxBaseAge.toInt + max 0 c.family.ageing.maxAgeBonus.toInt < 20)
    (catalog : Catalog) (dice : σ) :
    (∃ d ∈ ((ofConfig c catalog dice).after 1).dynasties, d.monarch = some ⟨0⟩) ∧
      ((ofConfig c catalog dice).after 1).roster.isAlive ⟨0⟩ = false := by
  rw [← length_dynasties_ofConfig c catalog dice] at hcrowd
  exact dead_founder_reigns (couples_ofConfig c catalog dice) hcrowd
    (founded_ofConfig c catalog dice).ruled (founders_ofConfig hstart hhealth catalog dice) hlimit

/-- With one dynasty more than there are ids for founders, and a year that no founder survives, the
last dynasty has a dead king at its end. -/
theorem crowns_of_crowd :
    let fleeting : FamilySettings := { ageing := { maxBaseAge := 0, maxAgeBonus := 0 } }
    let s := ofConfig (crowded fleeting (2 ^ 31 + 1)) .empty (Generator.seeded 42)
    (∃ d ∈ (s.after 1).dynasties, d.monarch = some ⟨0⟩) ∧
      (s.after 1).roster.isAlive ⟨0⟩ = false := by
  have hcrowd : ∀ family, 2 ^ 31 < (crowded family (2 ^ 31 + 1)).run.dynasties.length := by
    intro family
    rw [length_crowded]
    decide
  exact dead_founder_reigns_after (hcrowd _) (by decide) rfl (by decide) .empty
    (Generator.seeded 42)

end Annals.Simulation
