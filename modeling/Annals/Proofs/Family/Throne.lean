import Annals.Proofs.Family.Home
/-!
# The throne

An heir is a living child or sibling of the dead monarch. Kin belong to the same house, so the crown
stays in the family.

* `Roster.heir?_kin`: heirs are living children or siblings.
* `Settled.turned`: a member's turn leaves everyone in a house.
* `Dynasty.Enthroned`: the monarch is a member of the family. Every turn keeps this.
-/

namespace Annals

namespace Roster

variable {r : Roster}

/-! ## Heirs -/

theorem oldest?_mem {ps : List Person} {p : Person} (h : oldest? ps = some p) : p ∈ ps := by
  induction ps generalizing p with
  | nil => cases h
  | cons q rest ih =>
    unfold oldest? at h
    split at h
    case h_1 first hfirst =>
      split at h
      · cases h
        exact List.mem_cons_of_mem q (ih hfirst)
      · cases h
        exact List.mem_cons_self
    case h_2 =>
      cases h
      exact List.mem_cons_self

/-- The oldest of those who can take the throne lives and is one of the list. -/
theorem oldest?_grown (h : r.Numbered) {year : Year} {ids : List PersonId} {p : Person}
    (hp : oldest? (r.grown year ids) = some p) : p.id ∈ ids ∧ r.isAlive p.id = true := by
  have hmem := oldest?_mem hp
  unfold grown at hmem
  rw [List.mem_filter, List.mem_filterMap] at hmem
  obtain ⟨⟨x, hx, hget⟩, hgrown⟩ := hmem
  have hid := h.id_eq hget
  have halive : p.isAlive = true := by
    unfold isGrown at hgrown
    rw [Bool.and_eq_true] at hgrown
    exact hgrown.1
  rw [hid]
  exact ⟨hx, (isAlive_of_get? hget).trans halive⟩

theorem mem_siblingIds {p : Person} {id x : PersonId} (h : x ∈ r.siblingIds p id) :
    ∃ mother father q, p.parents = some (mother, father) ∧ (q = mother ∨ q = father) ∧
      x ∈ r.childrenOf q := by
  unfold siblingIds at h
  split at h
  case h_2 => exact absurd h List.not_mem_nil
  case h_1 mother father hparents =>
    rw [List.mem_filter, List.mem_flatMap] at h
    obtain ⟨⟨s, hs, hx⟩, -⟩ := h
    obtain ⟨q, hq, hget⟩ := List.mem_filterMap.1 hs
    refine ⟨mother, father, q, hparents, by simpa using hq, ?_⟩
    rw [childrenOf_of_get? hget]
    exact hx

/-- An heir lives, and is a child of the monarch or has a parent in common with the monarch. -/
theorem heir?_kin (h : r.Numbered) {id heir : PersonId} {year : Year} {kinship : Kinship}
    (hheir : r.heir? id year = some (heir, kinship)) :
    r.isAlive heir = true ∧
      (heir ∈ r.childrenOf id ∨ ∃ mother father q, r.parentsOf id = some (mother, father) ∧
        (q = mother ∨ q = father) ∧ heir ∈ r.childrenOf q) := by
  unfold heir? at hheir
  split at hheir
  case h_1 => cases hheir
  case h_2 p hp =>
    split at hheir
    case h_1 child hchild =>
      cases hheir
      obtain ⟨hmem, halive⟩ := oldest?_grown h hchild
      refine ⟨halive, .inl ?_⟩
      rw [childrenOf_of_get? hp]
      exact hmem
    case h_2 =>
      obtain ⟨sibling, hsibling, heq⟩ := Option.map_eq_some_iff.1 hheir
      cases heq
      obtain ⟨hmem, halive⟩ := oldest?_grown h hsibling
      obtain ⟨mother, father, q, hparents, hq, hchild⟩ := mem_siblingIds hmem
      exact ⟨halive, .inr ⟨mother, father, q, (parentsOf_of_get? hp).trans hparents, hq, hchild⟩⟩

end Roster

namespace Homes

variable {home : PersonId → Option PersonId} {founders : List PersonId} {r : Roster} {m : Market}

/-- Both parents belong to the house of their child. -/
theorem home_parent (h : Homes home founders r m) (hr : r.Genealogy) {c mother father q : PersonId}
    (hc : r.parentsOf c = some (mother, father)) (hq : q = mother ∨ q = father) :
    home q = home c := by
  rcases hq with rfl | rfl
  · exact (h.parents hc).symm
  · exact (h.partners (hr.wedded hc).2).trans (h.parents hc).symm

/-- Children belong to the house of their parents, and so do siblings. -/
theorem home_kin (h : Homes home founders r m) (hr : r.Genealogy) {id x : PersonId}
    (hkin : x ∈ r.childrenOf id ∨ ∃ mother father q, r.parentsOf id = some (mother, father) ∧
      (q = mother ∨ q = father) ∧ x ∈ r.childrenOf q) : home x = home id := by
  have hchild : ∀ {c p}, c ∈ r.childrenOf p → home c = home p := by
    intro c p hc
    obtain ⟨mother, father, hparents, hp⟩ := hr.mirrored.1 hc
    exact (h.home_parent hr hparents hp).symm
  rcases hkin with hmem | ⟨mother, father, q, hparents, hq, hmem⟩
  · exact hchild hmem
  · exact (hchild hmem).trans (h.home_parent hr hparents hq)

/-- An heir belongs to the house of the monarch. -/
theorem home_heir (h : Homes home founders r m) (hr : r.Genealogy) {id heir : PersonId}
    {year : Year} {kinship : Kinship} (hheir : r.heir? id year = some (heir, kinship)) :
    home heir = home id := h.home_kin hr (Roster.heir?_kin hr.numbered hheir).2

end Homes

/-! ## Turns -/

section Turns

variable {σ : Type} {home : PersonId → Option PersonId} {before behind : List Dynasty}
  {s : FamilySettings} {year : Year} {id : PersonId} {p : Person} {h h' : House σ}
  {events : List FamilyEvent}

/-- A burial leaves everyone in a house. -/
theorem Settled.buried
    (hs : Settled home (before ++ h.dynasty :: behind) h.roster h.market) (year : Year)
    (hmember : id ∈ h.dynasty.family) :
    Settled home (before ++ (h.buried year id).dynasty :: behind) (h.buried year id).roster
      (h.buried year id).market := by
  have halive : ∀ y, (h.roster.kill id year).isAlive y = true ↔
      y ≠ id ∧ h.roster.isAlive y = true := Roster.isAlive_kill h.roster id year
  exact hs.leave (.kill h.roster id year) (.kill h.roster id year) halive fun _ => hmember

/-- The crown changes nobody's house. -/
theorem Settled.crowned (hs : Settled home (before ++ h.dynasty :: behind) h.roster h.market)
    (heir : PersonId) :
    Settled home (before ++ (h.crowned heir).dynasty :: behind) (h.crowned heir).roster
      (h.crowned heir).market := by
  have halive := Roster.isAlive_crown h.roster heir
  exact (hs.keep (.crown h.roster heir) (.crown h.roster heir) halive).replace rfl rfl

/-- A wedding brings somebody from the market into the house. -/
theorem Settled.married
    (hs : Settled home (before ++ h.dynasty :: behind) h.roster h.market)
    (hr : h.roster.Genealogy) (hmember : id ∈ h.dynasty.family) {partner : PersonId} {dice : σ}
    (hget : h.roster.get? id = some p) (hsingle : h.roster.livingPartner? id = none)
    (hpartner : partner ∈ h.market.suitable s.marriage p year h.roster) :
    ∃ home', Settled home' (before ++ (h.married id partner dice).dynasty :: behind)
      (h.married id partner dice).roster (h.married id partner dice).market := by
  have hm := hr.marriageable hget hsingle hpartner
  obtain ⟨hmarket, q, hq, hsuits⟩ := (Market.mem_suitable hr.numbered).1 hpartner
  have hnew : home partner = none := (hs.homes.market partner hmarket).1
  have hhome := hs.home_member hmember
  have halive : h.roster.isAlive partner = true := by
    simp only [Market.suits, Bool.and_eq_true] at hsuits
    exact (Roster.isAlive_of_get? hq).trans hsuits.1.1.1.2
  refine ⟨_, hs.join hr hnew (Roster.Continues.marry h.roster id partner) ?joins ?alive ?market⟩
  case joins =>
    obtain ⟨g, -, hgender⟩ := hm.opposite
    refine ⟨⟨_, (Roster.Continues.marry ..).genderOf hgender⟩, fun hb => ?_, fun hc => .inl ?_⟩
    · rcases (hr.mem_partnersOf_marry hm).1 hb with hold | ⟨rfl, rfl⟩ | ⟨rfl, rfl⟩
      · exact .inl hold
      · exact .inr (.inr ⟨rfl, hhome⟩)
      · exact .inr (.inl ⟨rfl, hhome⟩)
    · rw [← Roster.parentsOf_marry]
      exact hc
  case alive =>
    intro y
    show (h.roster.marry id partner).isAlive y = true ↔ _
    rw [Roster.isAlive_marry]
    refine ⟨.inl, ?_⟩
    rintro (hy | rfl)
    · exact hy
    · exact halive
  case market =>
    intro y hy
    exact Market.mem_remove.1 hy

/-- A newborn belongs to the house of the mother. -/
theorem Settled.withNewborn
    (hs : Settled home (before ++ h.dynasty :: behind) h.roster h.market)
    (hr : h.roster.Genealogy) (hmember : id ∈ h.dynasty.family) {father : PersonId} {dice : σ}
    (arrival : Roster.Arrival) (hfather : h.roster.livingPartner? id = some father)
    (hsize : h.roster.size < 2 ^ 32) :
    ∃ home', Settled home' (before ++ (h.withNewborn arrival id father dice).dynasty :: behind)
      (h.withNewborn arrival id father dice).roster
      (h.withNewborn arrival id father dice).market := by
  have hpartner := (Roster.livingPartner?_mem hfather).1
  obtain ⟨pm, pf, hpm, hpf, hne⟩ := hr.exists_couple hpartner
  have hhome := hs.home_member hmember
  have hlater := Roster.Continues.bear h.roster arrival id father
  refine ⟨_, hs.join hr (hs.home_nextId hsize) hlater ?joins ?alive ?market⟩
  case joins =>
    refine ⟨?_, fun hb => .inl ?_, fun hc => ?_⟩
    · have hborn := Roster.get?_bear (a := arrival) hsize hpm hpf hne h.roster.nextId
      rw [if_pos rfl] at hborn
      exact ⟨_, Roster.genderOf_of_get? hborn⟩
    · rw [← Roster.partnersOf_bear]
      exact hb
    · change (h.roster.bear arrival id father).parentsOf _ = _ at hc
      rw [Roster.parentsOf_bear hsize hpm hpf hne] at hc
      split at hc
      case isTrue hnext =>
        cases hc
        exact .inr ⟨hnext, hhome⟩
      case isFalse => exact .inl hc
  case alive =>
    intro y
    show (h.roster.bear arrival id father).isAlive y = true ↔ _
    unfold Roster.bear
    rw [Roster.isAlive_addChild]
    exact Roster.isAlive_spawn_iff hsize
  case market =>
    intro y hy
    refine ⟨hy, ?_⟩
    rintro rfl
    exact hs.nextId_not_mem hsize hy

/-- A member who ages stays where he was. -/
theorem Settled.aged (hs : Settled home (before ++ h.dynasty :: behind) h.roster h.market)
    (id : PersonId) (loss : Int32) (dice : σ) :
    Settled home (before ++ (h.aged id loss dice).dynasty :: behind) (h.aged id loss dice).roster
      (h.aged id loss dice).market := by
  exact hs.keep (.weaken h.roster id loss) (.weaken h.roster id loss)
    (Roster.isAlive_weaken h.roster id loss)

/-- Who has aged in a turn is a member. -/
theorem mem_family_of_aged {loss : Int32} {dice : σ}
    (hmember : h.roster.isAlive id = true → id ∈ h.dynasty.family)
    (hget : (h.aged id loss dice).roster.get? id = some p) (halive : p.isAlive = true) :
    id ∈ (h.aged id loss dice).dynasty.family := by
  refine hmember ?_
  rw [← Roster.isAlive_weaken h.roster id loss]
  exact (Roster.isAlive_of_get? hget).trans halive

/-- A member's turn leaves everyone in a house, as long as it does not use up the ids. -/
theorem Settled.turned [Dice σ] (hturned : House.Turned s year id h events h')
    (hmember : h.roster.isAlive id = true → id ∈ h.dynasty.family) (hr : h.roster.Genealogy)
    (hs : Settled home (before ++ h.dynasty :: behind) h.roster h.market)
    (hsize : h'.roster.size ≤ 2 ^ 32) :
    ∃ home', Settled home' (before ++ h'.dynasty :: behind) h'.roster h'.market := by
  -- A house is won in a wedding or a birth only; all other turns keep the map.
  cases hturned with
  | gone hdead =>
    have halive : ∀ y, h.roster.isAlive y = true ↔ y ≠ id ∧ h.roster.isAlive y = true := by
      intro y
      refine ⟨fun hy => ⟨?_, hy⟩, fun hy => hy.2⟩
      rintro rfl
      rw [hdead] at hy
      cases hy
    exact ⟨home, hs.leave (.refl _) ⟨fun _ => rfl, fun _ => rfl, fun _ => rfl⟩ halive hmember⟩
  | @aged p loss dice _ _ hget halive hfared =>
    have hr' : (h.aged id loss dice).roster.Genealogy := hr.weaken id loss
    have hs' := hs.aged id loss dice
    have hin := mem_family_of_aged hmember hget halive
    cases hfared with
    | quiet dice => exact ⟨home, hs'⟩
    | died hother => exact ⟨home, hs'.buried year hin⟩
    | succeeded isKing hmonarch hheir => exact ⟨home, (hs'.buried year hin).crowned _⟩
    | ended isKing hmonarch hheir => exact ⟨home, (hs'.buried year hin).replace rfl rfl⟩
    | married dice hgrown hsingle hpartner => exact hs'.married hr' hin hget hsingle hpartner
    | bore drawn dice hfertile hfather arrival harrival =>
      change ((h.aged id loss _).roster.bear arrival id _).size ≤ 2 ^ 32 at hsize
      rw [Roster.size_bear] at hsize
      exact hs'.withNewborn hr' hin arrival hfather hsize

/-- The monarch is a member of the family. -/
def Dynasty.Enthroned (d : Dynasty) : Prop := ∀ x, d.monarch = some x → x ∈ d.family

/-- A member's turn keeps the monarch in the family: no monarch is buried without an heir from the
family, or else the line ends. -/
theorem Dynasty.Enthroned.turned [Dice σ] (hturned : House.Turned s year id h events h')
    (hmember : h.roster.isAlive id = true → id ∈ h.dynasty.family) (hr : h.roster.Genealogy)
    (hs : Settled home (before ++ h.dynasty :: behind) h.roster h.market)
    (hthrone : h.dynasty.Enthroned) : h'.dynasty.Enthroned := by
  have hliving := hs.living_self
  cases hturned with
  | gone hdead =>
    -- The monarch is a member and lives, so it is somebody else who leaves.
    intro x hx
    refine Dynasty.mem_leave.2 ⟨hthrone x hx, ?_⟩
    rintro rfl
    have halive := ((hliving x).1 (hthrone x hx)).1
    rw [hdead] at halive
    cases halive
  | @aged p loss dice _ _ hget halive hfared =>
    have hin := mem_family_of_aged hmember hget halive
    cases hfared with
    | quiet dice => exact hthrone
    | died hother =>
      intro x hx
      refine Dynasty.mem_leave.2 ⟨hthrone x hx, ?_⟩
      rintro rfl
      exact hother hx
    | @succeeded isKing heir kinship hmonarch hheir =>
      intro x hx
      cases hx
      have hs' := (hs.aged id loss dice).buried year hin
      have hr' : ((h.aged id loss dice).buried year id).roster.Genealogy :=
        (hr.weaken id loss).kill id year
      -- The heir belongs to the house of the dead monarch and lives.
      have hhome := (hs'.homes.home_heir hr' hheir).trans (hs.home_member hin)
      exact (hs'.living_self heir).2 ⟨(Roster.heir?_kin hr'.numbered hheir).1, hhome⟩
    | ended isKing hmonarch hheir =>
      intro x hx
      cases hx
    | married dice hgrown hsingle hpartner =>
      intro x hx
      refine Dynasty.mem_join.2 (.inl (hthrone x ?_))
      rw [← hx]
      exact (Dynasty.monarch_join ..).symm
    | bore drawn dice hfertile hfather arrival harrival =>
      intro x hx
      refine Dynasty.mem_join.2 (.inl (hthrone x ?_))
      rw [← hx]
      exact (Dynasty.monarch_join ..).symm

end Turns

end Annals
