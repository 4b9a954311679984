import Annals.Proofs.Family.Reign
/-!
# Succession

What a dynasty's year does to the crown: the heirs of the year are those who are new among the
persons that have reigned, the events tell of every handover, and a line that has ended stays ended.

* `Ruled`: monarchs are in the roster and have reigned.
* `House.successors`: the heirs of turns in a row.
* `House.Passed`: what turns in a row do to a house; `House.passed_turn` for one turn,
  `House.passed_passYear` for a year.
-/

namespace Annals

/-- Every monarch has reigned. -/
structure Ruled (ds : List Dynasty) (r : Roster) : Prop where
  numbered : r.Numbered
  reigned : ∀ d ∈ ds, ∀ x, d.monarch = some x → r.hasReigned x = true

theorem Ruled.exists_monarch {ds : List Dynasty} {r : Roster} (hr : Ruled ds r) {d : Dynasty}
    (hd : d ∈ ds) {x : PersonId} (hx : d.monarch = some x) : ∃ p, r.get? x = some p :=
  Roster.exists_of_hasReigned (hr.reigned d hd x hx)

/-- A monarch keeps the name. -/
theorem Ruled.map_nameOf {ds : List Dynasty} {r r' : Roster} (hr : Ruled ds r)
    (hlater : r.Continues r') {d : Dynasty} (hd : d ∈ ds) :
    d.monarch.map r'.nameOf = d.monarch.map r.nameOf := by
  cases hmonarch : d.monarch with
  | none => rfl
  | some x =>
    obtain ⟨p, hp⟩ := hr.exists_monarch hd hmonarch
    exact congrArg some (hlater.nameOf hp)

namespace House

variable {σ : Type}

/-- The name of the monarch. -/
def monarchName (h : House σ) : Option String := h.dynasty.monarch.map h.roster.nameOf

/-- Whoever has become monarch from one state to another. -/
def newMonarch (h h' : House σ) : List PersonId :=
  if h'.dynasty.monarch = h.dynasty.monarch then [] else h'.dynasty.monarch.toList

/-- The successors of turns in a row. -/
def successors [Dice σ] (s : FamilySettings) (year : Year) : List PersonId → House σ → List PersonId
  | [], _ => []
  | id :: rest, h =>
    let next := (passMember s year id h).2
    h.newMonarch next ++ successors s year rest next

/-- What turns in a row do to a house, with the events and the successors. -/
structure Passed (h : House σ) (events : List FamilyEvent) (heirs : List PersonId)
    (h' : House σ) : Prop where
  ruled : Ruled [h'.dynasty] h'.roster
  continues : h.roster.Continues h'.roster
  name : h'.dynasty.name = h.dynasty.name
  founder : h'.dynasty.founder = h.dynasty.founder
  ended : h.dynasty.monarch = none → h'.dynasty.monarch = none
  reigned : ∀ x, h'.roster.hasReigned x = true ↔ h.roster.hasReigned x = true ∨ x ∈ heirs
  reign : Reign h.monarchName (events.map FamilyEvent.deed) h'.monarchName
  told : ∀ e ∈ events, e.dynasty = h.dynasty.name

namespace Passed

variable {h h' h'' : House σ} {events more : List FamilyEvent} {heirs later : List PersonId}

theorem refl (hr : Ruled [h.dynasty] h.roster) : Passed h [] [] h where
  ruled := hr
  continues := .refl h.roster
  name := rfl
  founder := rfl
  ended := fun hnone => hnone
  reigned := fun x => by simp
  reign := .done _
  told := fun _ he => absurd he List.not_mem_nil

theorem trans (hp : Passed h events heirs h') (hp' : Passed h' more later h'') :
    Passed h (events ++ more) (heirs ++ later) h'' where
  ruled := hp'.ruled
  continues := hp.continues.trans hp'.continues
  name := hp'.name.trans hp.name
  founder := hp'.founder.trans hp.founder
  ended := fun hnone => hp'.ended (hp.ended hnone)
  reigned := by
    intro x
    rw [hp'.reigned, hp.reigned, List.mem_append, or_assoc]
  reign := by
    rw [List.map_append]
    exact hp.reign.append hp'.reign
  told := by
    intro e he
    rw [List.mem_append] at he
    rcases he with he | he
    · exact hp.told e he
    · exact (hp'.told e he).trans hp.name

end Passed

/-! ## One turn -/

section Turn

variable {s : FamilySettings} {year : Year} {id : PersonId} {h h' : House σ}
  {events : List FamilyEvent}

/-- A turn that leaves the crown alone. -/
theorem Passed.of_same (hr : Ruled [h.dynasty] h.roster) (hnumbered : h'.roster.Numbered)
    (hlater : h.roster.Continues h'.roster) (hname : h'.dynasty.name = h.dynasty.name)
    (hfounder : h'.dynasty.founder = h.dynasty.founder)
    (hmonarch : h'.dynasty.monarch = h.dynasty.monarch)
    (hreigned : ∀ x, h'.roster.hasReigned x = h.roster.hasReigned x)
    (hevents : ∀ e ∈ events, e.dynasty = h.dynasty.name ∧ e.deed.handover? = none) :
    Passed h events (h.newMonarch h') h' where
  ruled := by
    refine ⟨hnumbered, fun d hd x hx => ?_⟩
    rw [List.mem_singleton.1 hd, hmonarch] at hx
    rw [hreigned]
    exact hr.reigned h.dynasty List.mem_cons_self x hx
  continues := hlater
  name := hname
  founder := hfounder
  ended := hmonarch.trans
  reigned := by
    intro x
    unfold newMonarch
    rw [if_pos hmonarch, hreigned]
    simp
  reign := by
    have hsame : h'.monarchName = h.monarchName := by
      unfold monarchName
      rw [hmonarch]
      exact hr.map_nameOf hlater List.mem_cons_self
    rw [hsame]
    refine Reign.of_aside fun deed hdeed => ?_
    obtain ⟨e, he, rfl⟩ := List.mem_map.1 hdeed
    exact (hevents e he).2
  told := fun e he => (hevents e he).1

/-- A turn in which the monarch has died and the crown has passed on or is lost. -/
theorem Passed.of_handover (hnumbered : h'.roster.Numbered) (hlater : h.roster.Continues h'.roster)
    (hname : h'.dynasty.name = h.dynasty.name) (hfounder : h'.dynasty.founder = h.dynasty.founder)
    (hmonarch : h.dynasty.monarch = some id) (hnext : h'.dynasty.monarch ≠ some id)
    (hreigned : ∀ x, h'.roster.hasReigned x = true ↔
      h.roster.hasReigned x = true ∨ h'.dynasty.monarch = some x)
    {age : Int32} {deed : FamilyDeed}
    (hdeed : deed.handover? = some (h.roster.nameOf id, h'.monarchName)) :
    Passed h [h.event year (.death (h.roster.nameOf id) age), h.event year deed] (h.newMonarch h')
      h' where
  ruled := by
    refine ⟨hnumbered, fun d hd x hx => ?_⟩
    rw [List.mem_singleton.1 hd] at hx
    exact (hreigned x).2 (.inr hx)
  continues := hlater
  name := hname
  founder := hfounder
  ended := by
    intro hnone
    rw [hmonarch] at hnone
    cases hnone
  reigned := by
    intro x
    unfold newMonarch
    rw [hmonarch, if_neg hnext, hreigned, Option.mem_toList]
  reign := by
    have hfirst : h.monarchName = some (h.roster.nameOf id) := by
      unfold monarchName
      rw [hmonarch]
      rfl
    rw [hfirst]
    exact .handover hdeed (.done _)
  told := by
    intro e he
    rw [List.mem_cons, List.mem_singleton] at he
    rcases he with rfl | rfl <;> rfl

/-- A turn, as far as the crown is concerned. -/
theorem passed_turn [Dice σ] (hr : Ruled [h.dynasty] h.roster)
    (hturned : Turned s year id h events h') : Passed h events (h.newMonarch h') h' := by
  have hnumbered := hturned.numbered hr.numbered
  have hlater := hturned.continues
  cases hturned with
  | gone hdead =>
    exact .of_same hr hnumbered hlater rfl rfl rfl (fun _ => rfl) (List.forall_mem_nil _)
  | @aged p loss dice _ _ hget halive hfared =>
    have haged : ∀ x, (h.roster.weaken id loss).hasReigned x = h.roster.hasReigned x :=
      Roster.hasReigned_update (f := Roster.weakened loss) (fun _ => rfl) h.roster id
    have hburied : ∀ x, ((h.roster.weaken id loss).kill id year).hasReigned x =
        h.roster.hasReigned x := fun x =>
      (Roster.hasReigned_update (f := Roster.deceased year) (fun _ => rfl) _ id x).trans (haged x)
    cases hfared with
    | quiet dice =>
      exact .of_same hr hnumbered hlater rfl rfl rfl haged (List.forall_mem_nil _)
    | died hother =>
      exact .of_same hr hnumbered hlater rfl rfl rfl hburied
        (List.forall_mem_singleton.2 ⟨rfl, rfl⟩)
    | @succeeded isKing heir kinship hmonarch hheir =>
      have hnum := (hr.numbered.weaken id loss).kill id year
      -- The heir lives, so it is not the monarch who has just been buried.
      have hliving := (Roster.heir?_kin hnum hheir).1
      have hne := ((Roster.isAlive_kill ..).1 hliving).1
      obtain ⟨q, hq, -⟩ := Roster.exists_of_isAlive hliving
      obtain ⟨old, hold⟩ := hr.exists_monarch List.mem_cons_self hmonarch
      have hburial := (Roster.Continues.weaken h.roster id loss).trans (.kill _ id year)
      have hname : ((h.aged id loss dice).buried year id).roster.nameOf id = h.roster.nameOf id :=
        hburial.nameOf hold
      rw [hname, hlater.nameOf hold]
      refine .of_handover hnumbered hlater rfl rfl hmonarch ?_ (fun x => ?_) rfl
      · intro heq
        exact hne (Option.some.inj heq)
      · refine (Roster.hasReigned_crown hq x).trans ?_
        rw [hburied]
        refine or_congr_right ⟨fun heq => congrArg some heq.symm, fun heq => ?_⟩
        exact (Option.some.inj heq).symm
    | ended isKing hmonarch hheir =>
      obtain ⟨old, hold⟩ := hr.exists_monarch List.mem_cons_self hmonarch
      have hname : ((h.aged id loss dice).buried year id).roster.nameOf id = h.roster.nameOf id :=
        hlater.nameOf hold
      rw [hname]
      refine .of_handover hnumbered hlater rfl rfl hmonarch ?_ (fun x => ?_) rfl
      · intro heq
        cases heq
      · show ((h.roster.weaken id loss).kill id year).hasReigned x = true ↔ _
        rw [hburied]
        refine ⟨.inl, ?_⟩
        rintro (hbefore | hnone)
        · exact hbefore
        · cases hnone
    | @married partner dice hgrown hsingle hpartner =>
      exact .of_same hr hnumbered hlater (Dynasty.name_join ..) (Dynasty.founder_join ..)
        (Dynasty.monarch_join ..)
        (fun x => (Roster.hasReigned_marry _ id partner x).trans (haged x))
        (List.forall_mem_singleton.2 ⟨rfl, rfl⟩)
    | @bore father drawn dice hfertile hfather arrival harrival =>
      exact .of_same hr hnumbered hlater (Dynasty.name_join ..) (Dynasty.founder_join ..)
        (Dynasty.monarch_join ..)
        (fun x => (Roster.hasReigned_bear _ arrival id father x).trans (haged x))
        (List.forall_mem_singleton.2 ⟨rfl, rfl⟩)

end Turn

/-! ## A year -/

section Year

variable [Dice σ] {h : House σ}

theorem passed_passMembers (s : FamilySettings) (year : Year) (ids : List PersonId)
    (hr : Ruled [h.dynasty] h.roster) :
    Passed h (h.passMembers s year ids).1 (successors s year ids h)
      (h.passMembers s year ids).2 := by
  induction ids generalizing h with
  | nil => exact .refl hr
  | cons id rest ih =>
    have hturn := passed_turn hr (turned s year id h)
    exact hturn.trans (ih hturn.ruled)

/-- The heirs of a dynasty's year. -/
def heirs (s : FamilySettings) (year : Year) (h : House σ) : List PersonId :=
  successors s year h.dynasty.family h

/-- A dynasty's year, as far as the crown is concerned. -/
theorem passed_passYear (s : FamilySettings) (year : Year) (hr : Ruled [h.dynasty] h.roster) :
    Passed h (h.passYear s year).1 (h.heirs s year) (h.passYear s year).2 :=
  passed_passMembers s year h.dynasty.family hr

end Year

end House

end Annals
