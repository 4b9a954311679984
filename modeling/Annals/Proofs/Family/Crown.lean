import Annals.Dice.Generator
import Annals.Proofs.Family.Throne
import Annals.Proofs.Family.Reign
/-!
# Crowns of the dead

Within a year the crown of a monarch who dies passes on at once. A monarch who is dead before the
year begins is only taken out of the family when the turn comes, and keeps the crown.

* `Reached`: the dynasties and rosters that operations on families lead to.
* `Seated`: monarchs are persons of the roster; every operation keeps this.
* `CrownLives`: the monarch of a dynasty lives.
* `House.Carried`: what turns in a row do to the crown, as far as life and death are concerned.
* `Reached.crownLives_passYear_iff`: when the monarch lives after a year.
-/

namespace Annals

/-! ## Operations -/

/-- Dynasties and the roster that they share, as operations on families lead to them in any order.
The market may be any, since anybody can be put on it. -/
inductive Reached : List Dynasty → Roster → Prop
  | empty : Reached [] .empty
  | spawn {ds : List Dynasty} {r : Roster} (a : Roster.Arrival) (h : Reached ds r) :
      Reached ds (r.spawn a).2
  | marry {ds : List Dynasty} {r : Roster} (a b : PersonId) (h : Reached ds r) :
      Reached ds (r.marry a b)
  | addChild {ds : List Dynasty} {r : Roster} (mother father child : PersonId)
      (h : Reached ds r) : Reached ds (r.addChild mother father child)
  | kill {ds : List Dynasty} {r : Roster} (id : PersonId) (year : Year) (h : Reached ds r) :
      Reached ds (r.kill id year)
  | found {ds : List Dynasty} {r : Roster} {σ : Type} [Dice σ] (name : String) (year : Year)
      (health : Int32) (dice : σ) (h : Reached ds r) :
      Reached (ds ++ [(Dynasty.found name year health r dice).1])
        (Dynasty.found name year health r dice).2.1
  | ofCouple {ds : List Dynasty} {r : Roster} (name : String) {king queen : PersonId} {p q : Person}
      (hking : r.get? king = some p) (hqueen : r.get? queen = some q) (h : Reached ds r) :
      Reached (ds ++ [.ofCouple name king queen]) r
  | join {before behind : List Dynasty} {d : Dynasty} {r : Roster} (id : PersonId)
      (h : Reached (before ++ d :: behind) r) : Reached (before ++ d.join id :: behind) r
  | leave {before behind : List Dynasty} {d : Dynasty} {r : Roster} (id : PersonId)
      (h : Reached (before ++ d :: behind) r) : Reached (before ++ d.leave id :: behind) r
  | market {ds : List Dynasty} {r : Roster} {σ : Type} [Dice σ] (m : Market) (s : FamilySettings)
      (year : Year) (dice : σ) (h : Reached ds r) : Reached ds (m.update s year r dice).2.1
  | year {before behind : List Dynasty} {σ : Type} [Dice σ] {house : House σ}
      (s : FamilySettings) (year : Year)
      (h : Reached (before ++ house.dynasty :: behind) house.roster) :
      Reached (before ++ (house.passYear s year).2.dynasty :: behind)
        (house.passYear s year).2.roster

/-! ## Monarchs of the roster -/

/-- The monarch is in the roster, if there is one. -/
def Dynasty.Seated (d : Dynasty) (r : Roster) : Prop :=
  ∀ x, d.monarch = some x → ∃ p, r.get? x = some p

/-- The monarch lives, if there is one. -/
def CrownLives (d : Dynasty) (r : Roster) : Prop := ∀ x, d.monarch = some x → r.isAlive x = true

theorem Dynasty.Seated.later {d : Dynasty} {r r' : Roster} (h : d.Seated r)
    (hlater : r.Continues r') : d.Seated r' := by
  intro x hx
  obtain ⟨p, hp⟩ := h x hx
  obtain ⟨q, hq, -⟩ := hlater.stays hp
  exact ⟨q, hq⟩

theorem Dynasty.Seated.of_monarch_eq {d d' : Dynasty} {r : Roster} (h : d.Seated r)
    (hmonarch : d'.monarch = d.monarch) : d'.Seated r := by
  unfold Dynasty.Seated
  rw [hmonarch]
  exact h

theorem CrownLives.seated {d : Dynasty} {r : Roster} (h : CrownLives d r) : d.Seated r := by
  intro x hx
  obtain ⟨p, hp, -⟩ := Roster.exists_of_isAlive (h x hx)
  exact ⟨p, hp⟩

/-- Everybody has the id of the place, and the monarchs are in the roster. -/
structure Seated (ds : List Dynasty) (r : Roster) : Prop where
  numbered : r.Numbered
  monarchs : ∀ d ∈ ds, d.Seated r

namespace Seated

variable {ds before behind : List Dynasty} {d d' : Dynasty} {r r' : Roster}

theorem later (h : Seated ds r) (hnumbered : r'.Numbered) (hlater : r.Continues r') :
    Seated ds r' := ⟨hnumbered, fun d hd => (h.monarchs d hd).later hlater⟩

/-- A further dynasty needs a monarch of the roster. -/
theorem append (h : Seated ds r) (hd : d.Seated r) : Seated (ds ++ [d]) r := by
  refine ⟨h.numbered, List.forall_mem_append.2 ⟨h.monarchs, ?_⟩⟩
  exact List.forall_mem_singleton.2 hd

/-- So does one that takes the place of another. -/
theorem replace (h : Seated (before ++ d :: behind) r) (hd : d'.Seated r) :
    Seated (before ++ d' :: behind) r := by
  obtain ⟨hbefore, hrest⟩ := List.forall_mem_append.1 h.monarchs
  refine ⟨h.numbered, List.forall_mem_append.2 ⟨hbefore, ?_⟩⟩
  exact List.forall_mem_cons.2 ⟨hd, (List.forall_mem_cons.1 hrest).2⟩

theorem monarch (h : Seated (before ++ d :: behind) r) : d.Seated r :=
  h.monarchs d (List.mem_append_right before List.mem_cons_self)

end Seated

/-! ## Turns -/

namespace House

variable {σ : Type} {h h' h'' : House σ} {events more : List FamilyEvent}

/-- What turns in a row do to the crown. A living monarch stays or is followed by a living one, if
by any; a dead one stays in place, and no handover is told. -/
structure Carried (h : House σ) (events : List FamilyEvent) (h' : House σ) : Prop where
  numbered : h'.roster.Numbered
  continues : h.roster.Continues h'.roster
  seated : h'.dynasty.Seated h'.roster
  lives_iff : CrownLives h'.dynasty h'.roster ↔ CrownLives h.dynasty h.roster
  dead : ¬ CrownLives h.dynasty h.roster → h'.dynasty.monarch = h.dynasty.monarch ∧
    ∀ e ∈ events, e.deed.handover? = none

theorem Carried.refl (hnumbered : h.roster.Numbered) (hseat : h.dynasty.Seated h.roster) :
    Carried h [] h :=
  ⟨hnumbered, .refl h.roster, hseat, Iff.rfl, fun _ => ⟨rfl, List.forall_mem_nil _⟩⟩

theorem Carried.trans (hc : Carried h events h') (hc' : Carried h' more h'') :
    Carried h (events ++ more) h'' where
  numbered := hc'.numbered
  continues := hc.continues.trans hc'.continues
  seated := hc'.seated
  lives_iff := hc'.lives_iff.trans hc.lives_iff
  dead := by
    intro hdead
    obtain ⟨hmonarch, hevents⟩ := hc.dead hdead
    obtain ⟨hmonarch', hevents'⟩ := hc'.dead fun hlives => hdead (hc.lives_iff.1 hlives)
    exact ⟨hmonarch'.trans hmonarch, List.forall_mem_append.2 ⟨hevents, hevents'⟩⟩

/-- A stretch that leaves the monarch in place, dead or alive, and tells of no handover. -/
theorem Carried.of_same (hnumbered : h'.roster.Numbered) (hlater : h.roster.Continues h'.roster)
    (hseat : h.dynasty.Seated h.roster)
    (hmonarch : h'.dynasty.monarch = h.dynasty.monarch)
    (hlife : ∀ x, h.dynasty.monarch = some x → h.roster.isAlive x = true →
      h'.roster.isAlive x = true)
    (hevents : ∀ e ∈ events, e.deed.handover? = none) : Carried h events h' where
  numbered := hnumbered
  continues := hlater
  seated := (hseat.later hlater).of_monarch_eq hmonarch
  lives_iff := by
    unfold CrownLives
    rw [hmonarch]
    constructor
    · intro hlives x hx
      obtain ⟨p, hp⟩ := hseat x hx
      exact hlater.isAlive (Roster.genderOf_of_get? hp) (hlives x hx)
    · intro hlives x hx
      exact hlife x hx (hlives x hx)
  dead := fun _ => ⟨hmonarch, hevents⟩

/-- A stretch in which a living monarch is followed by a living one, if by any. -/
theorem Carried.of_handover (hnumbered : h'.roster.Numbered)
    (hlater : h.roster.Continues h'.roster) (hbefore : CrownLives h.dynasty h.roster)
    (hafter : CrownLives h'.dynasty h'.roster) : Carried h events h' where
  numbered := hnumbered
  continues := hlater
  seated := hafter.seated
  lives_iff := ⟨fun _ => hbefore, fun _ => hafter⟩
  dead := fun hdead => absurd hbefore hdead

/-- What one turn does to the crown. -/
theorem carried_turn [Dice σ] {s : FamilySettings} {year : Year} {id : PersonId}
    (hnumbered : h.roster.Numbered) (hseat : h.dynasty.Seated h.roster)
    (hturned : Turned s year id h events h') : Carried h events h' := by
  have hnumbered' := hturned.numbered hnumbered
  have hlater := hturned.continues
  cases hturned with
  | gone hdead =>
    -- Who is dead leaves the family, but the crown is not looked at.
    exact .of_same hnumbered' hlater hseat rfl (fun _ _ hx => hx) (List.forall_mem_nil _)
  | @aged p loss dice _ _ hget halive hfared =>
    have haged : ∀ x, (h.roster.weaken id loss).isAlive x = h.roster.isAlive x :=
      Roster.isAlive_weaken h.roster id loss
    have hliving : h.roster.isAlive id = true := by
      rw [← haged]
      exact (Roster.isAlive_of_get? hget).trans halive
    -- Only the one whose turn it is dies, so a monarch who dies in the turn has lived before it.
    have hlives : h.dynasty.monarch = some id → CrownLives h.dynasty h.roster := by
      intro hmonarch x hx
      rw [hmonarch] at hx
      cases hx
      exact hliving
    cases hfared with
    | quiet dice =>
      exact .of_same hnumbered' hlater hseat rfl (fun x _ hx => (haged x).trans hx)
        (List.forall_mem_nil _)
    | died hother =>
      refine .of_same hnumbered' hlater hseat rfl (fun x hmonarch hx => ?_)
        (List.forall_mem_singleton.2 rfl)
      refine (Roster.isAlive_kill _ id year x).2 ⟨?_, (haged x).trans hx⟩
      rintro rfl
      exact hother hmonarch
    | @succeeded isKing heir kinship hmonarch hheir =>
      refine .of_handover hnumbered' hlater (hlives hmonarch) fun x hx => ?_
      cases hx
      have hnum := (hnumbered.weaken id loss).kill id year
      exact (Roster.isAlive_crown _ heir heir).trans (Roster.heir?_kin hnum hheir).1
    | ended isKing hmonarch hheir =>
      refine .of_handover hnumbered' hlater (hlives hmonarch) fun x hx => ?_
      cases hx
    | @married partner dice hgrown hsingle hpartner =>
      refine .of_same hnumbered' hlater hseat (Dynasty.monarch_join ..) (fun x _ hx => ?_)
        (List.forall_mem_singleton.2 rfl)
      exact (Roster.isAlive_marry _ id partner x).trans ((haged x).trans hx)
    | @bore father drawn dice hfertile hfather arrival harrival =>
      refine .of_same hnumbered' hlater hseat (Dynasty.monarch_join ..) (fun x _ hx => ?_)
        (List.forall_mem_singleton.2 rfl)
      obtain ⟨q, hq, hqalive⟩ := Roster.exists_of_isAlive ((haged x).trans hx)
      have hspawned := Roster.get?_spawn_of_some hq arrival
      refine (Roster.isAlive_addChild _ id father _ x).trans ?_
      exact (Roster.isAlive_of_get? hspawned).trans hqalive

/-- What turns in a row do to the crown. -/
theorem carried_passMembers [Dice σ] (s : FamilySettings) (year : Year) (ids : List PersonId)
    (hnumbered : h.roster.Numbered) (hseat : h.dynasty.Seated h.roster) :
    Carried h (h.passMembers s year ids).1 (h.passMembers s year ids).2 := by
  induction ids generalizing h with
  | nil => exact .refl hnumbered hseat
  | cons id rest ih =>
    have hturn := carried_turn hnumbered hseat (turned s year id h)
    exact hturn.trans (ih hturn.numbered hturn.seated)

end House

/-! ## Years -/

/-- Every operation keeps the monarchs in the roster. -/
theorem Reached.seated {ds : List Dynasty} {r : Roster} (h : Reached ds r) : Seated ds r := by
  induction h with
  | empty => exact ⟨Roster.numbered_empty, List.forall_mem_nil _⟩
  | @spawn ds r a _ ih => exact ih.later (ih.numbered.spawn a) (.spawn r a)
  | @marry ds r a b _ ih => exact ih.later (ih.numbered.marry a b) (.marry r a b)
  | @addChild ds r mother father child _ ih =>
    exact ih.later (ih.numbered.addChild mother father child) (.addChild r mother father child)
  | @kill ds r id year _ ih => exact ih.later (ih.numbered.kill id year) (.kill r id year)
  | @found ds r σ _ name year health dice _ ih =>
    obtain ⟨king, queen, dice', -, -, hfound⟩ := Dynasty.found_eq name year health r dice
    rw [hfound]
    have hlater := Roster.Continues.withCouple r king queen
    refine (ih.later (ih.numbered.withCouple king queen) hlater).append fun x hx => ?_
    cases hx
    -- The king is there from his arrival on.
    obtain ⟨p, hp⟩ := r.exists_nextId king
    obtain ⟨q, hq, -⟩ := (Roster.Continues.spawn (r.spawn king).2 queen).stays hp
    obtain ⟨q', hq', -⟩ := ((Roster.Continues.marry _ r.nextId (r.spawn king).2.nextId).trans
      (.crown _ r.nextId)).stays hq
    exact ⟨q', hq'⟩
  | ofCouple name hking hqueen _ ih =>
    refine ih.append fun x hx => ?_
    cases hx
    exact ⟨_, hking⟩
  | @join before behind d r id _ ih =>
    exact ih.replace (ih.monarch.of_monarch_eq (Dynasty.monarch_join d id))
  | leave id _ ih => exact ih.replace ih.monarch
  | @market ds r σ _ m s year dice _ ih =>
    rcases m.update_cases s year r dice with ⟨dice', hupdate⟩ | ⟨arrival, dice', hupdate⟩
    · rw [hupdate]
      exact ih
    · rw [hupdate]
      exact ih.later (ih.numbered.spawn arrival) (.spawn r arrival)
  | @year before behind σ _ house s year _ ih =>
    have hcarried := House.carried_passMembers s year house.dynasty.family ih.numbered ih.monarch
    exact (ih.later hcarried.numbered hcarried.continues).replace hcarried.seated

/-- Whatever operations went before, the monarch lives after the year of a dynasty exactly when the
monarch lived before it, or there was none. A monarch who was dead before the year keeps the crown
through it, and the year tells of no handover. -/
theorem Reached.crownLives_passYear_iff {σ : Type} [Dice σ] {before behind : List Dynasty}
    {h : House σ} (hreached : Reached (before ++ h.dynasty :: behind) h.roster)
    (s : FamilySettings) (year : Year) :
    (CrownLives (h.passYear s year).2.dynasty (h.passYear s year).2.roster ↔
      CrownLives h.dynasty h.roster) ∧
    ∀ x, h.dynasty.monarch = some x → h.roster.isAlive x = false →
      (h.passYear s year).2.dynasty.monarch = some x ∧
      (h.passYear s year).2.roster.isAlive x = false ∧
      ∀ e ∈ (h.passYear s year).1, e.deed.handover? = none := by
  have hseated := hreached.seated
  have hcarried := House.carried_passMembers s year h.dynasty.family hseated.numbered
    hseated.monarch
  refine ⟨hcarried.lives_iff, fun x hx hdead => ?_⟩
  have hlost : ¬ CrownLives h.dynasty h.roster := by
    intro hlives
    rw [hlives x hx] at hdead
    cases hdead
  obtain ⟨hmonarch, hevents⟩ := hcarried.dead hlost
  obtain ⟨p, hp⟩ := hseated.monarch x hx
  refine ⟨hmonarch.trans hx, ?_, hevents⟩
  -- The dead stay dead, whoever else has had a turn.
  rw [Bool.eq_false_iff]
  intro halive
  have hbefore := hcarried.continues.isAlive (Roster.genderOf_of_get? hp) halive
  rw [hdead] at hbefore
  cases hbefore

/-- A young founder. -/
def founder (name : String) (gender : Gender) : Roster.Arrival :=
  { name, gender, birthYear := 975, faction := "Noble Houses", region := "Central Valley"
    health := 100 }

/-- A house whose king has been killed between two years. -/
def bereaved : House Generator where
  dynasty := .ofCouple "House Nerdival" ⟨0⟩ ⟨1⟩
  roster :=
    ((Roster.empty.spawn (founder "Baelor" .male)).2.spawn (founder "Kyra" .female)).2.kill ⟨0⟩ 999
  market := .empty
  dice := .stepping 0 0

theorem bereaved_reached : Reached ([] ++ bereaved.dynasty :: []) bereaved.roster :=
  .kill ⟨0⟩ 999 (.ofCouple "House Nerdival" rfl rfl (.spawn _ (.spawn _ .empty)))

theorem crownLives_passYear_iff_bereaved :
    Reached ([] ++ bereaved.dynasty :: []) bereaved.roster ∧
    bereaved.dynasty.monarch = some ⟨0⟩ ∧ bereaved.roster.isAlive ⟨0⟩ = false ∧
    (bereaved.passYear {} 1000).2.dynasty.monarch = some ⟨0⟩ ∧
    (bereaved.passYear {} 1000).2.roster.isAlive ⟨0⟩ = false ∧
    ∀ e ∈ (bereaved.passYear {} 1000).1, e.deed.handover? = none := by
  have hdead : bereaved.roster.isAlive ⟨0⟩ = false := by decide +kernel
  obtain ⟨-, hafter⟩ := bereaved_reached.crownLives_passYear_iff {} 1000
  exact ⟨bereaved_reached, rfl, hdead, hafter ⟨0⟩ rfl hdead⟩

/-- The king is dead, has left the family, and wears the crown after the year. -/
theorem crown_of_dead :
    Reached ([] ++ bereaved.dynasty :: []) bereaved.roster ∧
    (bereaved.passYear {} 1000).2.dynasty.monarch = some ⟨0⟩ ∧
    (bereaved.passYear {} 1000).2.roster.isAlive ⟨0⟩ = false ∧
    (bereaved.passYear {} 1000).2.dynasty.isMember ⟨0⟩ = false :=
  ⟨bereaved_reached, by decide +kernel⟩

end Annals
