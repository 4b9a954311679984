import Annals.Dice.Generator
import Annals.Proofs.Family.Ageing
import Annals.Proofs.Family.Crowds
import Annals.Proofs.Family.Fates
/-!
# The account of a year

A year goes through the members present at its beginning while their turns change the family, the
market and the roster. Put down turn by turn, the fates of the members account for everything that
is different at the end of the year.

* `House.Accounted`: fates that account for the turns of a list of members.
* `House.exists_accounted`: the turns of any list have such an account, by induction.
* `House.limits_passMembers`: whoever survives has health left and is not too old.
* `House.Balanced`, `House.year_accounted`: the account of a whole year.
* `House.year_unaccounted_crowd`: a year that has none, for want of an id.
-/

namespace Annals

/-- Who reigns after some turns. -/
def reign (monarch : Option PersonId) (account : List (PersonId × Fate)) : Option PersonId :=
  account.foldl (fun m e => e.2.crown m) monarch

namespace House

variable {σ : Type} {s : FamilySettings} {year : Year} {id : PersonId} {h h' h'' : House σ}
  {events more : List FamilyEvent} {ids rest : List PersonId} {fate : Fate}
  {account : List (PersonId × Fate)}

/-! ## Accounts -/

/-- The fates of a list of members, one for each, account for their turns: for all that is told, for
who dies and who reigns, for who leaves the family and who joins it from the market or is born. The
names and ages that are told are those in the roster afterwards. -/
structure Accounted (s : FamilySettings) (year : Year) (ids : List PersonId)
    (account : List (PersonId × Fate)) (h : House σ) (events : List FamilyEvent)
    (h' : House σ) : Prop where
  members : account.map Prod.fst = ids
  told : events = account.flatMap fun e => (e.2.deeds h'.roster year e.1).map (h.event year)
  absent : ∀ e ∈ account, e.2 = .absent ↔ h.roster.isAlive e.1 = false
  died : ∀ e ∈ account, e.2.isDeath = true ↔
    h.roster.isAlive e.1 = true ∧ h'.roster.isAlive e.1 = false
  /-- A death hands the crown over just if the dead member reigns at that moment. -/
  handover : ∀ before e behind, account = before ++ e :: behind → e.2.isDeath = true →
    (e.2.isHandover = true ↔ reign h.dynasty.monarch before = some e.1)
  monarch : h'.dynasty.monarch = reign h.dynasty.monarch account
  family : h'.dynasty.family =
    h.dynasty.family.filter (fun x => x ∉ ids ∨ h'.roster.isAlive x = true) ++
      account.flatMap fun e => e.2.joined
  joined : ∀ e ∈ account, ∀ x ∈ e.2.joined, h'.roster.isAlive x = true
  spouses : ∀ e ∈ account, ∀ x ∈ e.2.spouses, x ∈ h.market.persons
  newborns : (account.flatMap fun e => e.2.newborns) =
    h.roster.nextIds (account.flatMap fun e => e.2.newborns).length
  health : ∀ e ∈ account, ∀ x ∈ e.2.newborns,
    h'.roster.healthOf x = some s.ageing.initialHealth
  size : h'.roster.size = h.roster.size + (account.flatMap fun e => e.2.newborns).length
  market : h'.market.candidates =
    h.market.candidates.filter fun c => c.person ∉ account.flatMap fun e => e.2.spouses
  others : ∀ x, h.roster.Knows x → x ∉ ids → h'.roster.isAlive x = h.roster.isAlive x
  /-- Nobody but the living of the list loses health. -/
  spared : ∀ x q, h.roster.get? x = some q → (x ∈ ids → q.isAlive = false) →
    h'.roster.healthOf x = some q.health

theorem accounted_nil (s : FamilySettings) (year : Year) (h : House σ) :
    Accounted s year [] [] h [] h where
  members := rfl
  told := rfl
  absent := List.forall_mem_nil _
  died := List.forall_mem_nil _
  handover := by
    intro before e behind hsplit
    exact absurd (congrArg List.length hsplit) (by simp)
  monarch := rfl
  family := by simp
  joined := List.forall_mem_nil _
  spouses := List.forall_mem_nil _
  newborns := rfl
  health := List.forall_mem_nil _
  size := rfl
  market := (filter_not_mem_nil _).symm
  others := fun _ _ _ => rfl
  spared := fun _ _ hq _ => Roster.healthOf_of_get? hq

/-! ## One turn more -/

/-- As long as ids are left, nobody has had the id of a newborn. -/
theorem Brings.not_knows (hb : Brings s year id fate h events h') (hroom : h'.roster.size ≤ 2 ^ 32)
    {x : PersonId} (hx : x ∈ fate.newborns) : ¬ h.roster.Knows x := by
  have hnewborns := hb.newborns
  have hsize := hb.size
  cases fate with
  | bore child father =>
    have hleft : h.roster.size < 2 ^ 32 := by
      rw [hsize] at hroom
      exact hroom
    have hchild : child = h.roster.nextId := List.singleton_inj.1 hnewborns
    rw [List.mem_singleton.1 hx, hchild]
    exact Roster.not_knows_nextId hleft
  | _ => exact absurd hx List.not_mem_nil

theorem Brings.mem_market (hb : Brings s year id fate h events h') {x : PersonId} :
    x ∈ h'.market.persons ↔ x ∈ h.market.persons ∧ x ∉ fate.spouses := by
  unfold Market.persons
  rw [hb.market]
  simp only [List.mem_map, List.mem_filter, decide_eq_true_eq]
  constructor
  · rintro ⟨c, ⟨hc, hstays⟩, rfl⟩
    exact ⟨⟨c, hc, rfl⟩, hstays⟩
  · rintro ⟨⟨c, hc, rfl⟩, hstays⟩
    exact ⟨c, ⟨hc, hstays⟩, rfl⟩

/-- Whoever joins is not in the list. -/
theorem Brings.not_mem_of_joined (hb : Brings s year id fate h events h') (ho : Orderly ids h)
    (hroom : h'.roster.size ≤ 2 ^ 32) {x : PersonId} (hx : x ∈ fate.joined) : x ∉ ids := by
  rcases List.mem_append.1 hx with hspouse | hnewborn
  · exact (ho.apart x (hb.spouses x hspouse)).1
  · exact fun hmem => hb.not_knows hroom hnewborn (ho.listed x hmem)

section Draws

variable [Dice σ]

/-- Who lives after the turn of somebody else has lived before it, and the other way round. -/
theorem Turned.isAlive_eq (hturned : Turned s year id h events h') {x : PersonId}
    (hx : h.roster.Knows x) (hne : x ≠ id) : h'.roster.isAlive x = h.roster.isAlive x := by
  rw [Bool.eq_iff_iff]
  exact ⟨hturned.continues.isAlive_of_knows hx, hturned.isAlive_of_ne hne⟩

theorem Orderly.turned (hturned : Turned s year id h events h') (ho : Orderly (id :: rest) h)
    (hb : Brings s year id fate h events h') (hroom : h'.roster.size ≤ 2 ^ 32) :
    Orderly rest h' where
  numbered := hturned.numbered ho.numbered
  listed := fun x hx => hturned.continues.knows (ho.listed x (List.mem_cons_of_mem id hx))
  family := by
    intro x hx
    rw [hb.family, List.mem_append, List.mem_filter] at hx
    rcases hx with ⟨hmember, -⟩ | hjoined
    · exact hturned.continues.knows (ho.family x hmember)
    · exact Roster.knows_of_isAlive (hb.joined x hjoined)
  market := fun x hx => hturned.continues.knows (ho.market x (hb.mem_market.1 hx).1)
  apart := by
    intro x hx
    obtain ⟨hcandidate, hsingle⟩ := hb.mem_market.1 hx
    obtain ⟨hlisted, hmember⟩ := ho.apart x hcandidate
    refine ⟨fun hmem => hlisted (List.mem_cons_of_mem id hmem), fun hmem => ?_⟩
    rw [hb.family, List.mem_append, List.mem_filter] at hmem
    rcases hmem with ⟨hold, -⟩ | hjoined
    · exact hmember hold
    · -- A candidate is known already, so it is no newborn either.
      rcases List.mem_append.1 hjoined with hspouse | hnewborn
      · exact hsingle hspouse
      · exact hb.not_knows hroom hnewborn (ho.market x hcandidate)

/-- A turn before others goes on top of their account. -/
theorem Accounted.cons (hrest : Accounted s year rest account h' more h'')
    (hturned : Turned s year id h events h') (hb : Brings s year id fate h events h')
    (ho : Orderly (id :: rest) h) (hid : id ∉ rest) (hroom : h'.roster.size ≤ 2 ^ 32)
    (hlater : h'.roster.Continues h''.roster) :
    Accounted s year (id :: rest) ((id, fate) :: account) h (events ++ more) h'' := by
  have hknown := ho.listed id List.mem_cons_self
  have hself : h''.roster.isAlive id = h'.roster.isAlive id :=
    hrest.others id (hturned.continues.knows hknown) hid
  -- Whoever has a later turn is not touched by this one.
  have hlisted : ∀ e ∈ account, h'.roster.isAlive e.1 = h.roster.isAlive e.1 := by
    intro e he
    have hmem : e.1 ∈ rest := hrest.members ▸ List.mem_map_of_mem he
    refine hturned.isAlive_eq (ho.listed e.1 (List.mem_cons_of_mem id hmem)) ?_
    rintro heq
    exact hid (heq ▸ hmem)
  constructor
  case members => rw [List.map_cons, hrest.members]
  case told =>
    have hevent : h'.event year = h.event year := by
      unfold event
      rw [hb.name]
    have hdeeds : fate.deeds h''.roster year id = fate.deeds h'.roster year id :=
      Fate.deeds_later hlater year (hturned.continues.knows hknown) hb.named
    rw [List.flatMap_cons, hdeeds, ← hb.told, hrest.told, hevent]
  case absent =>
    refine List.forall_mem_cons.2 ⟨hb.absent, fun e he => ?_⟩
    rw [← hlisted e he]
    exact hrest.absent e he
  case died =>
    refine List.forall_mem_cons.2 ⟨?_, fun e he => ?_⟩
    · rw [hself]
      exact hb.died
    · rw [← hlisted e he]
      exact hrest.died e he
  case handover =>
    intro before e behind hsplit hdeath
    cases before with
    | nil =>
      cases hsplit
      exact hb.handover hdeath
    | cons first before =>
      obtain ⟨rfl, hsplit'⟩ := List.cons.inj hsplit
      show _ ↔ reign (fate.crown h.dynasty.monarch) before = some e.1
      rw [← hb.monarch]
      exact hrest.handover before e behind hsplit' hdeath
  case monarch =>
    rw [hrest.monarch, hb.monarch]
    rfl
  case family =>
    have hjoined : fate.joined.filter (fun x => x ∉ rest ∨ h''.roster.isAlive x = true) =
        fate.joined := by
      refine List.filter_eq_self.2 fun x hx => ?_
      rw [decide_eq_true_eq]
      exact .inl fun hmem =>
        hb.not_mem_of_joined ho hroom hx (List.mem_cons_of_mem id hmem)
    have hstays : ∀ x ∈ h.dynasty.family,
        (decide (x ∉ rest ∨ h''.roster.isAlive x = true) &&
          decide (x ≠ id ∨ h'.roster.isAlive id = true)) =
        decide (x ∉ id :: rest ∨ h''.roster.isAlive x = true) := by
      intro x _
      rw [← Bool.decide_and, decide_eq_decide, List.mem_cons, ← hself]
      by_cases hx : x = id
      · subst hx
        simp [hid]
      · simp [hx]
    rw [hrest.family, hb.family, List.filter_append, List.filter_filter, hjoined,
      List.filter_congr hstays, List.append_assoc, List.flatMap_cons]
  case joined =>
    refine List.forall_mem_cons.2 ⟨fun x hx => ?_, hrest.joined⟩
    have hlives := hb.joined x hx
    rw [hrest.others x (Roster.knows_of_isAlive hlives) fun hmem =>
      hb.not_mem_of_joined ho hroom hx (List.mem_cons_of_mem id hmem)]
    exact hlives
  case spouses =>
    refine List.forall_mem_cons.2 ⟨hb.spouses, fun e he x hx => ?_⟩
    exact (hb.mem_market.1 (hrest.spouses e he x hx)).1
  case newborns =>
    rw [List.flatMap_cons, List.length_append, Roster.nextIds_add hb.size, ← hb.newborns,
      ← hrest.newborns]
  case health =>
    refine List.forall_mem_cons.2 ⟨fun x hx => ?_, hrest.health⟩
    obtain ⟨q, hq, hhealth⟩ := Option.map_eq_some_iff.1 (hb.health x hx)
    have hunlisted := hb.not_mem_of_joined ho hroom (List.mem_append_right _ hx)
    rw [hrest.spared x q hq fun hmem => absurd (List.mem_cons_of_mem id hmem) hunlisted, hhealth]
  case size => rw [List.flatMap_cons, List.length_append, hrest.size, hb.size, Nat.add_assoc]
  case market =>
    rw [hrest.market, hb.market, List.filter_filter]
    refine List.filter_congr fun c _ => ?_
    rw [← Bool.decide_and, decide_eq_decide, List.flatMap_cons, List.mem_append, not_or, and_comm]
  case others =>
    intro x hx hmem
    rw [List.mem_cons, not_or] at hmem
    rw [hrest.others x (hturned.continues.knows hx) hmem.2, hturned.isAlive_eq hx hmem.1]
  case spared =>
    intro x q hq hdead
    have hhealth := hturned.healthOf hq fun halive heq => by
      rw [← heq, Roster.isAlive_of_get? hq, hdead (heq ▸ List.mem_cons_self)] at halive
      cases halive
    obtain ⟨q', hq', hsame⟩ := Option.map_eq_some_iff.1 hhealth
    rw [← hsame]
    refine hrest.spared x q' hq' fun hmem => ?_
    -- The dead of the list stay dead.
    rw [← Roster.isAlive_of_get? hq', Bool.eq_false_iff]
    intro halive
    have hbefore := hturned.continues.isAlive_of_knows ⟨q, hq⟩ halive
    rw [Roster.isAlive_of_get? hq, hdead (List.mem_cons_of_mem id hmem)] at hbefore
    cases hbefore

/-- The turns of different persons have an account. -/
theorem exists_accounted (s : FamilySettings) (year : Year) (ids : List PersonId) (h : House σ)
    (ho : Orderly ids h) (honce : ids.Nodup)
    (hroom : (passMembers s year ids h).2.roster.size ≤ 2 ^ 32) :
    ∃ account, Accounted s year ids account h (passMembers s year ids h).1
      (passMembers s year ids h).2 := by
  induction ids generalizing h with
  | nil => exact ⟨[], accounted_nil s year h⟩
  | cons id rest ih =>
    obtain ⟨hid, hrest⟩ := List.nodup_cons.1 honce
    have hturned := turned s year id h
    have hlater := continues_passMembers s year rest (passMember s year id h).2
    have hroom' := Nat.le_trans hlater.size_le hroom
    obtain ⟨fate, hbrings⟩ := hturned.exists_brings ho hroom'
    obtain ⟨account, haccount⟩ := ih _ (ho.turned hturned hbrings hroom') hrest hroom
    exact ⟨_, haccount.cons hturned hbrings ho hid hroom' hlater⟩

/-! ## Survivors -/

theorem toInt_limit_le (s : AgeingSettings) (dice : σ) :
    (s.maxBaseAge + drawnBonus s dice).toInt ≤
      s.maxBaseAge.toInt + max 0 s.maxAgeBonus.toInt := by
  have hbonus : 0 ≤ (drawnBonus s dice).toInt ∧
      (drawnBonus s dice).toInt ≤ max 0 s.maxAgeBonus.toInt :=
    Dice.between_mem_max 0 s.maxAgeBonus dice
  have hsum := Operation.toInt_add_le (a := s.maxBaseAge) hbonus.1
  omega

/-- Whoever is alive after a turn in a list of different persons has health left and is not beyond
the greatest age. -/
theorem limits_passMembers (s : FamilySettings) (year : Year) {ids : List PersonId}
    (honce : ids.Nodup) {x : PersonId} (hx : x ∈ ids) {p q : Person}
    (hp : h.roster.get? x = some p)
    (hq : (passMembers s year ids h).2.roster.get? x = some q) (hlives : q.isAlive = true) :
    0 < q.health ∧
      (q.age year).toInt ≤ s.ageing.maxBaseAge.toInt + max 0 s.ageing.maxAgeBonus.toInt := by
  induction ids generalizing h p with
  | nil => cases hx
  | cons id rest ih =>
    obtain ⟨hnew, hrest⟩ := List.nodup_cons.1 honce
    have hturned := turned s year id h
    obtain ⟨p', hp', hbecomes⟩ := hturned.continues.stays hp
    by_cases hne : x = id
    · subst hne
      -- Who lives at the end has survived the own turn, and later turns change neither health
      -- nor age.
      have hlater := continues_passMembers s year rest (passMember s year x h).2
      have hown : (passMember s year x h).2.roster.isAlive x = true :=
        hlater.isAlive_of_knows ⟨p', hp'⟩ ((Roster.isAlive_of_get? hq).trans hlives)
      have halive := hbecomes.isAlive ((Roster.isAlive_of_get? hp').symm.trans hown)
      obtain ⟨loss, bonus, hleft, hyoung, hhealth⟩ := survives hp halive hown
      obtain ⟨q', hq', hsame, -⟩ := exists_passMembers_of_not_mem s year hp' hnew
      obtain rfl : q' = q := Option.some.inj (hq'.symm.trans hq)
      have hage : q'.age year = p.age year := by
        obtain ⟨q'', hq'', hlast⟩ := (hturned.continues.trans hlater).stays hp
        obtain rfl : q'' = q' := Option.some.inj (hq''.symm.trans hq)
        unfold Person.age
        rw [Option.isNone_iff_eq_none.1 hlives, Option.isNone_iff_eq_none.1 halive,
          hlast.birthYear]
      rw [Roster.healthOf_of_get? hp'] at hhealth
      rw [hsame, Option.some.inj hhealth, hage]
      refine ⟨Int32.not_le.1 hleft, ?_⟩
      exact Int.le_trans (Int32.le_iff_toInt_le.1 (Int32.not_lt.1 hyoung)) (toInt_limit_le ..)
    · exact ih hrest ((List.mem_cons.1 hx).resolve_left hne) hp' hq

theorem nodup_passMembers (s : FamilySettings) (year : Year) (ids : List PersonId) (h : House σ)
    (honce : h.dynasty.family.Nodup) :
    (passMembers s year ids h).2.dynasty.family.Nodup := by
  induction ids generalizing h with
  | nil => exact honce
  | cons id rest ih => exact ih _ ((turned s year id h).nodup honce)

end Draws

/-! ## The whole year -/

theorem countP_isBirth (h : House σ) (r : Roster) (year : Year) (id : PersonId) (f : Fate) :
    ((f.deeds r year id).map (h.event year)).countP FamilyEvent.isBirth = f.newborns.length := by
  cases f <;> rfl

/-- The account of a year: the fates of the members present at its beginning account for their
turns. Those who live on stay in their order, and behind them come those who have joined; each of
the living has lost health once, and who survives has health left and is not too old. -/
structure Balanced (s : FamilySettings) (year : Year) (account : List (PersonId × Fate))
    (h : House σ) (events : List FamilyEvent) (h' : House σ) : Prop
    extends Accounted s year h.dynasty.family account h events h' where
  stayed : h'.dynasty.family =
    h.dynasty.family.filter h'.roster.isAlive ++ account.flatMap fun e => e.2.joined
  alive : ∀ x ∈ h'.dynasty.family, h'.roster.isAlive x = true
  once : h'.dynasty.family.Nodup
  weakened : ∀ x ∈ h.dynasty.family, ∀ p, h.roster.get? x = some p → p.isAlive = true →
    ∃ loss : Int32, s.ageing.healthLossMin.toInt ≤ loss.toInt ∧
      loss.toInt ≤ max s.ageing.healthLossMin.toInt s.ageing.healthLossMax.toInt ∧
      h'.roster.healthOf x = some (p.health - loss)
  limits : ∀ x ∈ h.dynasty.family, ∀ q, h'.roster.get? x = some q → q.isAlive = true →
    0 < q.health ∧
      (q.age year).toInt ≤ s.ageing.maxBaseAge.toInt + max 0 s.ageing.maxAgeBonus.toInt
  births : h'.roster.size = h.roster.size + events.countP FamilyEvent.isBirth

/-- Every year has an account, as long as ids are left: of a roster in which every person has the id
of the place, of a family without repetition, and of a market with nobody of the family. -/
theorem year_accounted [Dice σ] (s : FamilySettings) (year : Year) (h : House σ)
    (hr : h.roster.Numbered) (honce : h.dynasty.family.Nodup)
    (hfamily : ∀ x ∈ h.dynasty.family, h.roster.Knows x)
    (hmarket : ∀ x ∈ h.market.persons, h.roster.Knows x ∧ x ∉ h.dynasty.family)
    (hroom : (h.passYear s year).2.roster.size ≤ 2 ^ 32) :
    ∃ account, Balanced s year account h (h.passYear s year).1 (h.passYear s year).2 := by
  have ho : Orderly h.dynasty.family h :=
    { numbered := hr, listed := hfamily, family := hfamily
      market := fun x hx => (hmarket x hx).1
      apart := fun x hx => ⟨(hmarket x hx).2, (hmarket x hx).2⟩ }
  obtain ⟨account, haccount⟩ : ∃ account, Accounted s year h.dynasty.family account h
      (h.passYear s year).1 (h.passYear s year).2 :=
    exists_accounted s year h.dynasty.family h ho honce hroom
  have hstayed : (h.passYear s year).2.dynasty.family =
      h.dynasty.family.filter (h.passYear s year).2.roster.isAlive ++
        account.flatMap fun e => e.2.joined := by
    refine haccount.family.trans (congrArg (· ++ _) (List.filter_congr fun x hx => ?_))
    simp [hx]
  refine ⟨account, { haccount with stayed := hstayed, alive := ?alive, once := ?once
                                   weakened := ?weakened, limits := ?limits, births := ?births }⟩
  case alive =>
    intro x hx
    rw [hstayed, List.mem_append, List.mem_filter, List.mem_flatMap] at hx
    rcases hx with ⟨-, halive⟩ | ⟨e, he, hjoined⟩
    · exact halive
    · exact haccount.joined e he x hjoined
  case once => exact nodup_passMembers s year h.dynasty.family h honce
  case weakened =>
    intro x hx p hp halive
    obtain ⟨dice, hhealth⟩ := healthOf_passMembers_of_mem s year honce hx hp halive
    obtain ⟨hlow, hhigh⟩ := Dice.between_mem_max s.ageing.healthLossMin s.ageing.healthLossMax dice
    exact ⟨drawnLoss s.ageing dice, hlow, hhigh, hhealth⟩
  case limits =>
    intro x hx q hq hlives
    obtain ⟨p, hp⟩ := hfamily x hx
    exact limits_passMembers s year honce hx hp hq hlives
  case births =>
    rw [haccount.size, haccount.told, List.countP_flatMap, List.length_flatMap]
    simp only [Function.comp_def, countP_isBirth]

/-- A very old king whose wife has died, their son, their daughter and her husband, with two
candidates on the market. -/
def fullHouse : House Generator where
  dynasty := { Dynasty.ofCouple "House Nerdival" ⟨0⟩ ⟨1⟩ with family := [⟨0⟩, ⟨1⟩, ⟨2⟩, ⟨3⟩, ⟨4⟩] }
  roster :=
    let couple := ((Roster.empty.spawn (.noble "Baelor" .male 880)).2.spawn
      (.noble "Kyra" .female 885)).2.marry ⟨0⟩ ⟨1⟩
    let son := (couple.spawn (.noble "Aegon" .male 960)).2.addChild ⟨1⟩ ⟨0⟩ ⟨2⟩
    let daughter := (son.spawn (.noble "Wren" .female 970)).2.addChild ⟨1⟩ ⟨0⟩ ⟨3⟩
    let family := ((daughter.spawn (.noble "Orion" .male 968)).2.marry ⟨3⟩ ⟨4⟩).kill ⟨1⟩ 990
    ((family.spawn (.noble "Lyra" .female 965)).2.spawn (.noble "Silas" .male 970)).2
  market := { candidates := [⟨⟨5⟩, 3⟩, ⟨⟨6⟩, 2⟩] }
  dice := .stepping 0 0

/-- The king dies and his son follows him and marries, the daughter gives birth, and nothing happens
to her husband. -/
theorem year_accounted_fullHouse :
    fullHouse.roster.Numbered ∧ fullHouse.dynasty.family.Nodup ∧
    (∀ x ∈ fullHouse.dynasty.family, fullHouse.roster.Knows x) ∧
    (∀ x ∈ fullHouse.market.persons, fullHouse.roster.Knows x ∧ x ∉ fullHouse.dynasty.family) ∧
    (fullHouse.passYear {} 1000).2.roster.size ≤ 2 ^ 32 ∧
    (fullHouse.passYear {} 1000).2.dynasty.family = [⟨2⟩, ⟨3⟩, ⟨4⟩, ⟨5⟩, ⟨7⟩] ∧
    ∃ account, Balanced {} 1000 account fullHouse (fullHouse.passYear {} 1000).1
      (fullHouse.passYear {} 1000).2 := by
  have hnumbered : fullHouse.roster.Numbered := by
    unfold fullHouse
    have hcouple := ((Roster.numbered_empty.spawn (.noble "Baelor" .male 880)).spawn
      (.noble "Kyra" .female 885)).marry ⟨0⟩ ⟨1⟩
    have hson := (hcouple.spawn (.noble "Aegon" .male 960)).addChild ⟨1⟩ ⟨0⟩ ⟨2⟩
    have hdaughter := (hson.spawn (.noble "Wren" .female 970)).addChild ⟨1⟩ ⟨0⟩ ⟨3⟩
    have hfamily := ((hdaughter.spawn (.noble "Orion" .male 968)).marry ⟨3⟩ ⟨4⟩).kill ⟨1⟩ 990
    exact (hfamily.spawn (.noble "Lyra" .female 965)).spawn (.noble "Silas" .male 970)
  have hknows : ∀ x, (fullHouse.roster.get? x).isSome = true → fullHouse.roster.Knows x :=
    fun x hx => Option.isSome_iff_exists.1 hx
  have honce : fullHouse.dynasty.family.Nodup := by decide
  have hfamily : ∀ x ∈ fullHouse.dynasty.family, fullHouse.roster.Knows x := by
    have hall : ∀ x ∈ fullHouse.dynasty.family, (fullHouse.roster.get? x).isSome = true := by
      decide +kernel
    exact fun x hx => hknows x (hall x hx)
  have hmarket : ∀ x ∈ fullHouse.market.persons,
      fullHouse.roster.Knows x ∧ x ∉ fullHouse.dynasty.family := by
    have hall : ∀ x ∈ fullHouse.market.persons,
        (fullHouse.roster.get? x).isSome = true ∧ x ∉ fullHouse.dynasty.family := by
      decide +kernel
    exact fun x hx => ⟨hknows x (hall x hx).1, (hall x hx).2⟩
  have hsize : (fullHouse.passYear {} 1000).2.roster.size = 8 := by decide +kernel
  have hroom : (fullHouse.passYear {} 1000).2.roster.size ≤ 2 ^ 32 := by
    rw [hsize]
    decide
  have hafter : (fullHouse.passYear {} 1000).2.dynasty.family = [⟨2⟩, ⟨3⟩, ⟨4⟩, ⟨5⟩, ⟨7⟩] := by
    decide +kernel
  exact ⟨hnumbered, honce, hfamily, hmarket, hroom, hafter,
    year_accounted {} 1000 fullHouse hnumbered honce hfamily hmarket hroom⟩

/-- The house of the second of a number of couples, when the first king has been killed. -/
def bereavedCrowd (couples : Nat) : House Generator :=
  let (_, roster, dice) :=
    Dynasty.foundAll 1000 100 (List.replicate couples "House Nerdival") .empty (Generator.seeded 42)
  { dynasty := .ofCouple "House Nerdival" ⟨2⟩ ⟨3⟩, roster := roster.kill ⟨0⟩ 1000, market := .empty
    dice }

/-- When the couples have used all ids, the second one has a child in the year of the founding, and
the child is taken for the dead king: he is in the family at the end of the year. -/
theorem bereavedCrowd_year {n : Nat} (hn : 2 * n = 2 ^ 32) :
    let h := bereavedCrowd n
    h.roster.Numbered ∧ h.dynasty.family = [⟨2⟩, ⟨3⟩] ∧ h.market = .empty ∧
    (∀ x, h.roster.Knows x) ∧
    ⟨0⟩ ∈ (h.passYear (.placid 19) 1000).2.dynasty.family ∧
    (h.passYear (.placid 19) 1000).2.roster.isAlive ⟨0⟩ = false := by
  unfold bereavedCrowd
  have hc := Dynasty.couples_foundAll 1000 100 (List.replicate n "House Nerdival")
    (Generator.seeded 42)
  have hfounded := (Dynasty.foundAll_inRange (by decide) (List.replicate n "House Nerdival")
    (Generator.seeded 42) (.empty 1000)).2
  have hnames := Dynasty.map_name_foundAll 1000 100 (List.replicate n "House Nerdival") .empty
    (Generator.seeded 42)
  generalize Dynasty.foundAll 1000 100 (List.replicate n "House Nerdival") .empty
    (Generator.seeded 42) = founded at hc hfounded hnames ⊢
  obtain ⟨ds, r, dice⟩ := founded
  dsimp only at hc hfounded hnames ⊢
  have hlength : ds.length = n := by
    rw [← List.length_map, hnames, List.length_replicate]
  have hfull : r.size = 2 ^ 32 := by rw [hc.size, hlength, hn]
  -- The house is the second one of those that have been founded.
  have hd : Dynasty.ofCouple "House Nerdival" ⟨2⟩ ⟨3⟩ ∈ ds := by
    obtain ⟨d, hd⟩ : ∃ d, ds[1]? = some d :=
      ⟨_, List.getElem?_eq_getElem (by omega)⟩
    have hname : d.name = "House Nerdival" := by
      refine List.eq_of_mem_replicate (n := n) ?_
      rw [← hnames]
      exact List.mem_map_of_mem (List.mem_of_getElem? hd)
    have hplace := hc.place hd
    rw [hname] at hplace
    exact hplace ▸ List.mem_of_getElem? hd
  have hknows : ∀ x, r.Knows x := by
    intro x
    refine Roster.exists_of_lt_size ?_
    rw [hfull]
    exact UInt32.toNat_lt x.index
  have hlater := Roster.Continues.kill r ⟨0⟩ 1000
  have hdead : (r.kill ⟨0⟩ 1000).isAlive ⟨0⟩ = false :=
    Bool.eq_false_iff.2 fun halive => ((Roster.isAlive_kill ..).1 halive).1 rfl
  obtain ⟨hr, -⟩ := hc.wedded (Nat.le_of_eq hfull)
  have hothers : ∀ x ∈ (Dynasty.ofCouple "House Nerdival" ⟨2⟩ ⟨3⟩).family,
      (r.kill ⟨0⟩ 1000).get? x = r.get? x := by
    refine List.forall_mem_cons.2 ⟨?_, List.forall_mem_singleton.2 ?_⟩
    · exact Roster.get?_update_ne (by decide) r _
    · exact Roster.get?_update_ne (by decide) r _
  have hage : ∀ q, r.get? ⟨3⟩ = some q →
      (19 : Int32).toInt < (1000 : Year).toInt - q.birthYear.toInt :=
    fun q hq => Int.lt_of_lt_of_le (by decide) (hfounded.persons hq).1
  obtain ⟨before, arrival, father, dice', hyear, hdynasty, hbefore, hnext⟩ :=
    birth_of_couple 19 hc hfounded hfull
      { dynasty := .ofCouple "House Nerdival" ⟨2⟩ ⟨3⟩, roster := r.kill ⟨0⟩ 1000, market := .empty
        dice }
      hd (hr.kill ⟨0⟩ 1000) (.kill r ⟨0⟩ 1000) (Roster.size_update ..) hothers hage
  refine ⟨hc.numbered.kill ⟨0⟩ 1000, rfl, rfl, fun x => hlater.knows (hknows x), ?_, ?_⟩
  · rw [hyear, ← hnext]
    exact Dynasty.mem_join.2 (.inr rfl)
  · -- The dead stay dead, also when a child is noted in their place.
    have hend := hbefore.trans (.bear before.roster arrival ⟨3⟩ father)
    rw [hyear]
    exact hend.isDead_of_knows (hlater.knows (hknows ⟨0⟩)) hdead

/-- Without an id left for the newborn the year of a house has no account: somebody dead is a member
at its end. -/
theorem year_unaccounted_crowd :
    let h := bereavedCrowd (2 ^ 31)
    h.roster.Numbered ∧ h.dynasty.family.Nodup ∧ (∀ x ∈ h.dynasty.family, h.roster.Knows x) ∧
    (∀ x ∈ h.market.persons, h.roster.Knows x ∧ x ∉ h.dynasty.family) ∧
    (∃ x ∈ (h.passYear (.placid 19) 1000).2.dynasty.family,
      (h.passYear (.placid 19) 1000).2.roster.isAlive x = false) ∧
    ¬ ∃ account, Balanced (.placid 19) 1000 account h (h.passYear (.placid 19) 1000).1
      (h.passYear (.placid 19) 1000).2 := by
  have hyear := bereavedCrowd_year (n := 2 ^ 31) (by decide)
  -- Nothing of the crowd is evaluated.
  generalize bereavedCrowd (2 ^ 31) = h at hyear
  obtain ⟨hnumbered, hfamily, hmarket, hknows, hmember, hdead⟩ := hyear
  refine ⟨hnumbered, ?_, fun x _ => hknows x, ?_, ⟨⟨0⟩, hmember, hdead⟩, ?_⟩
  · rw [hfamily]
    decide
  · rw [hmarket]
    exact List.forall_mem_nil _
  · rintro ⟨account, haccount⟩
    rw [haccount.alive ⟨0⟩ hmember] at hdead
    cases hdead

end House

end Annals
