import Annals.Proofs.Family.Operations
import Annals.Proofs.Family.Throne
/-!
# Ages within bounds

With the usual settings nobody whose age is asked for is older than 121 years. Members die beyond
the greatest age of a year, candidates leave the market while they are young, and heirs are members.
So no operation of family life wraps around.

* `Fit`, `Awaited`: bounds on the age and the health of a member and of a candidate.
* `Vigour`: these bounds for all families and the market, in a year in progress.
* `Vigour.inRange`: then no operation of a turn wraps around.
* `Vigour.turned`, `Vigour.passMarket`, `Vigour.newYear`: turns, the market and new years keep it.
* `vigour_turnLaw`: turns keep it and wrap nothing around.
-/

namespace Annals

/-! ## Bounds -/

/-- The age and the health of a member in a year in progress. Whoever has survived the own turn is
at most 120 years old. -/
structure Fit (year : Year) (waiting : List PersonId) (x : PersonId) (p : Person) : Prop where
  born : 0 ≤ year.toInt - p.birthYear.toInt
  old : year.toInt - p.birthYear.toInt ≤ 121
  survivor : x ∉ waiting → year.toInt - p.birthYear.toInt ≤ 120
  weak : 1 ≤ p.health.toInt
  strong : p.health.toInt ≤ 100

/-- The age and the health of a candidate, who leaves the market before becoming too old. -/
structure Awaited (limit : Int) (year : Year) (c : Candidate) (p : Person) : Prop where
  born : 0 ≤ year.toInt - p.birthYear.toInt
  young : year.toInt - p.birthYear.toInt + c.remaining.toNat ≤ limit
  health : p.health.toInt = 100

/-- The bounds on all members and all candidates. -/
structure Vigour (limit : Int) (year : Year) (waiting : List PersonId) (ds : List Dynasty)
    (r : Roster) (m : Market) : Prop where
  members : ∀ d ∈ ds, ∀ x ∈ d.family, ∀ p, r.get? x = some p → Fit year waiting x p
  candidates : ∀ c ∈ m.candidates, ∀ p, r.get? c.person = some p → Awaited limit year c p

theorem Fit.of_same {year : Year} {waiting waiting' : List PersonId} {x : PersonId} {p q : Person}
    (h : Fit year waiting x p) (hborn : q.birthYear = p.birthYear) (hhealth : q.health = p.health)
    (hwaiting : x ∉ waiting' → x ∉ waiting) : Fit year waiting' x q := by
  refine ⟨?_, ?_, fun hx => ?_, ?_, ?_⟩
  · rw [hborn]
    exact h.born
  · rw [hborn]
    exact h.old
  · rw [hborn]
    exact h.survivor (hwaiting hx)
  · rw [hhealth]
    exact h.weak
  · rw [hhealth]
    exact h.strong

/-- A candidate who is married is young and strong. -/
theorem Awaited.fit {year : Year} {c : Candidate} {p q : Person} (h : Awaited 35 year c p)
    (hborn : q.birthYear = p.birthYear) (hhealth : q.health = p.health) (waiting : List PersonId)
    (x : PersonId) : Fit year waiting x q := by
  obtain ⟨hlow, hyoung, hstrong⟩ := h
  rw [← hborn] at hlow hyoung
  rw [← hhealth] at hstrong
  exact ⟨hlow, by omega, fun _ => by omega, by omega, by omega⟩

/-- The age of the living, when it does not wrap around. -/
theorem Person.toInt_age {p : Person} {year : Year} (halive : p.isAlive = true)
    (hlow : 0 ≤ year.toInt - p.birthYear.toInt) (hhigh : year.toInt - p.birthYear.toInt ≤ 121) :
    (p.age year).toInt = year.toInt - p.birthYear.toInt := by
  have heq : p.age year = year - p.birthYear := by
    unfold age
    rw [Option.isNone_iff_eq_none.1 halive]
    rfl
  rw [heq, Operation.toInt_sub (Operation.inRange_sub.2 (by omega))]

theorem Person.inRange_ageOperation {p : Person} {year : Year} (halive : p.isAlive = true)
    (hlow : 0 ≤ year.toInt - p.birthYear.toInt) (hhigh : year.toInt - p.birthYear.toInt ≤ 121) :
    (p.ageOperation year).InRange := by
  rw [ageOperation_of_isAlive halive]
  exact Operation.inRange_sub.2 (by omega)

/-! ## Kin -/

/-- Whom an id stands for later is the person for whom it stood before. -/
theorem Roster.Continues.becomes {r r' : Roster} (h : r.Continues r') {x : PersonId} {p q : Person}
    (hp : r.get? x = some p) (hq : r'.get? x = some q) : p.Becomes q := by
  obtain ⟨q', hq', hbecomes⟩ := h.stays hp
  rw [hq] at hq'
  cases hq'
  exact hbecomes

namespace Roster

variable {r : Roster} {year : Year} {op : Operation}

theorem mem_agesOf {ids : List PersonId} (hop : op ∈ r.agesOf year ids) :
    ∃ x ∈ ids, ∃ p, r.get? x = some p ∧ p.isAlive = true ∧ op = p.ageOperation year := by
  obtain ⟨p, hp, rfl⟩ := List.mem_map.1 hop
  rw [List.mem_filter, List.mem_filterMap] at hp
  obtain ⟨⟨x, hx, hget⟩, halive⟩ := hp
  exact ⟨x, hx, p, hget, halive, rfl⟩

/-- The search for an heir asks for the ages of living kin. -/
theorem mem_heirOperations {id : PersonId} (hop : op ∈ r.heirOperations id year) :
    ∃ x p, r.get? x = some p ∧ p.isAlive = true ∧ op = p.ageOperation year ∧
      (x ∈ r.childrenOf id ∨ ∃ mother father q, r.parentsOf id = some (mother, father) ∧
        (q = mother ∨ q = father) ∧ x ∈ r.childrenOf q) := by
  unfold heirOperations at hop
  split at hop
  case h_1 => exact absurd hop List.not_mem_nil
  case h_2 monarch hmonarch =>
    rcases List.mem_append.1 hop with hop | hop
    · obtain ⟨x, hx, p, hp, halive, rfl⟩ := mem_agesOf hop
      refine ⟨x, p, hp, halive, rfl, .inl ?_⟩
      rw [childrenOf_of_get? hmonarch]
      exact hx
    · split at hop
      case h_1 => exact absurd hop List.not_mem_nil
      case h_2 =>
        obtain ⟨x, hx, p, hp, halive, rfl⟩ := mem_agesOf hop
        obtain ⟨mother, father, q, hparents, hq, hchild⟩ := mem_siblingIds hx
        exact ⟨x, p, hp, halive, rfl,
          .inr ⟨mother, father, q, (parentsOf_of_get? hmonarch).trans hparents, hq, hchild⟩⟩

/-- Everyone has the age and the health of a founder. -/
structure Founded (year : Year) (r : Roster) : Prop where
  persons : ∀ {x p}, r.get? x = some p →
    20 ≤ year.toInt - p.birthYear.toInt ∧ year.toInt - p.birthYear.toInt ≤ 40 ∧
      p.health.toInt = 100

namespace Founded

theorem empty (year : Year) : Roster.empty.Founded year := ⟨fun hp => by cases hp⟩

theorem spawn (h : r.Founded year) {a : Arrival} (ha : 20 ≤ year.toInt - a.birthYear.toInt ∧
    year.toInt - a.birthYear.toInt ≤ 40 ∧ a.health.toInt = 100) :
    (r.spawn a).2.Founded year := by
  refine ⟨@fun x p hp => ?_⟩
  rcases get?_spawn_cases r a x with hsame | ⟨-, -, hnew⟩
  · exact h.persons (hsame.symm.trans hp)
  · rw [hnew] at hp
    cases hp
    exact ha

theorem update (h : r.Founded year) {f : Person → Person}
    (hf : ∀ p, (f p).birthYear = p.birthYear ∧ (f p).health = p.health) (id : PersonId) :
    (r.update id f).Founded year := by
  refine ⟨@fun x p hp => ?_⟩
  rw [get?_update] at hp
  split at hp
  · obtain ⟨q, hq, rfl⟩ := Option.map_eq_some_iff.1 hp
    rw [(hf q).1, (hf q).2]
    exact h.persons hq
  · exact h.persons hp

theorem marry (h : r.Founded year) (a b : PersonId) : (r.marry a b).Founded year := by
  have hpartner : ∀ (c : PersonId) (p : Person),
      (addPartner c p).birthYear = p.birthYear ∧ (addPartner c p).health = p.health := by
    intro c p
    unfold addPartner
    split <;> exact ⟨rfl, rfl⟩
  exact (h.update (hpartner b) a).update (hpartner a) b

theorem withCouple (h : r.Founded year) {king queen : Arrival}
    (hking : 20 ≤ year.toInt - king.birthYear.toInt ∧ year.toInt - king.birthYear.toInt ≤ 40 ∧
      king.health.toInt = 100)
    (hqueen : 20 ≤ year.toInt - queen.birthYear.toInt ∧ year.toInt - queen.birthYear.toInt ≤ 40 ∧
      queen.health.toInt = 100) : (r.withCouple king queen).Founded year := by
  have hmarried := ((h.spawn hking).spawn hqueen).marry r.nextId (r.spawn king).2.nextId
  exact hmarried.update (f := withCrown) (fun _ => ⟨rfl, rfl⟩) r.nextId

end Founded

end Roster

/-! ## The usual settings -/

section Draws

variable {σ : Type} [Dice σ]

theorem House.drawnLoss_mem (drawn : σ) : 0 ≤ (House.drawnLoss {} drawn).toInt ∧
    (House.drawnLoss {} drawn).toInt ≤ 5 := Dice.between_mem (by decide) drawn

theorem House.drawnBonus_mem (drawn : σ) : 0 ≤ (House.drawnBonus {} drawn).toInt ∧
    (House.drawnBonus {} drawn).toInt ≤ 40 := Dice.between_mem (by decide) drawn

/-- The greatest age of a year. -/
theorem House.toInt_greatestAge (drawn : σ) :
    (80 + House.drawnBonus {} drawn).toInt = 80 + (House.drawnBonus {} drawn).toInt := by
  obtain ⟨hlow, hhigh⟩ := House.drawnBonus_mem drawn
  have hbase : (80 : Int32).toInt = 80 := rfl
  rw [Operation.toInt_add (Operation.inRange_add.2 (by omega)), hbase]

omit [Dice σ] in
theorem Market.remaining_of_stays {r : Roster} {c : Candidate} (h : Market.stays r c = true) :
    0 < c.remaining.toNat := by
  unfold Market.stays at h
  rw [Bool.and_eq_true, decide_eq_true_eq] at h
  exact UInt32.lt_iff_toNat_lt.1 h.1

/-! ## Who is where after a turn -/

namespace House

variable {s : FamilySettings} {year : Year} {id : PersonId} {h h' : House σ}
  {events : List FamilyEvent}

/-- Whoever is in the family after a turn has been in it, comes from the market, or is a newborn. -/
theorem Turned.mem_family (hturned : Turned s year id h events h') (hr : h.roster.Genealogy)
    (hsize : h'.roster.size ≤ 2 ^ 32) {x : PersonId} (hx : x ∈ h'.dynasty.family) :
    x ∈ h.dynasty.family ∨ x ∈ h.market.persons ∨
      ∀ q, h'.roster.get? x = some q →
        q.birthYear = year ∧ q.health = s.ageing.initialHealth := by
  cases hturned with
  | gone hdead => exact .inl (Dynasty.mem_leave.1 hx).1
  | @aged p loss dice _ _ hget halive hfared =>
    have hr' : (h.roster.weaken id loss).Genealogy := hr.weaken id loss
    cases hfared with
    | quiet dice => exact .inl hx
    | died hother => exact .inl (Dynasty.mem_leave.1 hx).1
    | succeeded isKing hmonarch hheir => exact .inl (Dynasty.mem_leave.1 hx).1
    | ended isKing hmonarch hheir => exact .inl (Dynasty.mem_leave.1 hx).1
    | married dice hgrown hsingle hpartner =>
      rcases Dynasty.mem_join.1 hx with hold | rfl
      · exact .inl hold
      · exact .inr (.inl ((Market.mem_suitable hr'.numbered).1 hpartner).1)
    | bore drawn dice hfertile hfather arrival harrival =>
      rcases Dynasty.mem_join.1 hx with hold | rfl
      · exact .inl hold
      · refine .inr (.inr fun q hq => ?_)
        obtain ⟨-, f, -, hf, hne⟩ := hr'.exists_couple (Roster.livingPartner?_mem hfather).1
        change ((h.roster.weaken id loss).bear arrival id _).size ≤ 2 ^ 32 at hsize
        rw [Roster.size_bear] at hsize
        change ((h.roster.weaken id loss).bear arrival id _).get? _ = some q at hq
        rw [Roster.get?_bear hsize hget hf hne] at hq
        change (if (h.roster.weaken id loss).nextId = (h.roster.weaken id loss).nextId then _
          else _) = some q at hq
        rw [if_pos rfl] at hq
        cases hq
        rw [harrival]
        exact ⟨rfl, rfl⟩

/-- Nobody comes to the market in a turn. -/
theorem Turned.candidates_subset (hturned : Turned s year id h events h') :
    h'.market.candidates ⊆ h.market.candidates := by
  cases hturned with
  | gone hdead => exact List.Subset.refl _
  | aged hget halive hfared =>
    cases hfared with
    | married dice hgrown hsingle hpartner => exact List.filter_sublist.subset
    | quiet dice => exact List.Subset.refl _
    | died hother => exact List.Subset.refl _
    | succeeded isKing hmonarch hheir => exact List.Subset.refl _
    | ended isKing hmonarch hheir => exact List.Subset.refl _
    | bore drawn dice hfertile hfather arrival harrival => exact List.Subset.refl _

end House

/-! ## A member's turn -/

namespace Vigour

variable {home : PersonId → Option PersonId} {limit : Int} {year : Year}
  {waiting rest : List PersonId} {before behind : List Dynasty} {id : PersonId} {h : House σ}

/-- No operation of a turn wraps around. -/
theorem inRange (hv : Vigour 35 year waiting (before ++ h.dynasty :: behind) h.roster h.market)
    (hr : h.roster.Genealogy)
    (hs : Settled home (before ++ h.dynasty :: behind) h.roster h.market)
    (hmember : h.roster.isAlive id = true → id ∈ h.dynasty.family) :
    ∀ op ∈ h.memberOperations {} year id, op.InRange := by
  intro op hop
  obtain ⟨p, hp, halive, hperformed⟩ := House.performed hop
  have hin := hmember ((Roster.isAlive_of_get? hp).trans halive)
  have hfit : ∀ {x q}, x ∈ h.dynasty.family → h.roster.get? x = some q → Fit year waiting x q :=
    fun hx => hv.members h.dynasty (List.mem_append_right _ List.mem_cons_self) _ hx _
  have hp' := hfit hin hp
  have hborn := hp'.born
  have hold := hp'.old
  have hage := Person.toInt_age halive hborn hold
  cases hperformed with
  | weakened drawn =>
    obtain ⟨hlow, hhigh⟩ := House.drawnLoss_mem drawn
    have hweak := hp'.weak
    have hstrong := hp'.strong
    show (Operation.sub p.health (House.drawnLoss {} drawn)).InRange
    exact Operation.inRange_sub.2 (by omega)
  | aged => exact Person.inRange_ageOperation halive hborn hold
  | limited drawn =>
    obtain ⟨hlow, hhigh⟩ := House.drawnBonus_mem drawn
    have hbase : (80 : Int32).toInt = 80 := rfl
    show (Operation.add 80 (House.drawnBonus {} drawn)).InRange
    exact Operation.inRange_add.2 (by omega)
  | succeeded loss dice hop =>
    -- Kin of the dead monarch are of the same house, and those who live are members.
    have hs' := (hs.aged id loss dice).buried year hin
    have hr' : ((h.aged id loss dice).buried year id).roster.Genealogy :=
      (hr.weaken id loss).kill id year
    have hlater : h.roster.Continues ((h.aged id loss dice).buried year id).roster :=
      (Roster.Continues.weaken h.roster id loss).trans (.kill ..)
    obtain ⟨x, q, hq, hqalive, rfl, hkin⟩ := Roster.mem_heirOperations hop
    have hhome := (hs'.homes.home_kin hr' hkin).trans (hs.home_member hin)
    have hleft := (hs'.living_self x).2 ⟨(Roster.isAlive_of_get? hq).trans hqalive, hhome⟩
    obtain ⟨g, hg⟩ := hs.homes.known hhome
    obtain ⟨q', hq', -⟩ := Roster.exists_of_genderOf hg
    have hfit' := hfit (Dynasty.mem_leave.1 hleft).1 hq'
    have hsame := (hlater.becomes hq' hq).birthYear
    refine Person.inRange_ageOperation hqalive ?_ ?_
    · rw [hsame]
      exact hfit'.born
    · rw [hsame]
      exact hfit'.old
  | grew hgrown =>
    have hleast : (18 : Int32).toInt = 18 := rfl
    show (Operation.sub (p.age year) 18).InRange
    exact Operation.inRange_sub.2 (by omega)
  | @sought _ c q loss hc hget hqalive hop =>
    obtain ⟨-, g, hg⟩ := hs.homes.market c.person (List.mem_map_of_mem hc)
    obtain ⟨q', hq', -⟩ := Roster.exists_of_genderOf hg
    have hawaited := hv.candidates c hc q' hq'
    have hsame := ((Roster.Continues.weaken h.roster id loss).becomes hq' hget).birthYear
    have hqborn : 0 ≤ year.toInt - q.birthYear.toInt := by
      rw [hsame]
      exact hawaited.born
    have hqyoung : year.toInt - q.birthYear.toInt ≤ 35 := by
      have hyoung := hawaited.young
      rw [hsame]
      omega
    have hqage := Person.toInt_age hqalive hqborn (by omega)
    have hgap : (Operation.sub (q.age year) (p.age year)).InRange :=
      Operation.inRange_sub.2 (by omega)
    simp only [List.mem_cons, List.not_mem_nil, or_false] at hop
    rcases hop with rfl | rfl | rfl
    · exact Person.inRange_ageOperation hqalive hqborn (by omega)
    · exact hgap
    · rw [Operation.inRange_abs, Operation.toInt_sub hgap]
      omega

/-! ### Survivors -/

/-- Who was within the bounds before a turn and lives after it is within them. -/
theorem fit_turned {x : PersonId} {p q : Person} (hfit : Fit year (id :: rest) x p)
    (hp : h.roster.get? x = some p) (hq : (h.passMember {} year id).2.roster.get? x = some q)
    (halive : q.isAlive = true) : Fit year rest x q := by
  have hturned := House.turned {} year id h
  have hbecomes := hturned.continues.becomes hp hq
  have hpalive := hbecomes.isAlive halive
  have hhealthOf : (h.passMember {} year id).2.roster.healthOf x = some q.health :=
    Roster.healthOf_of_get? hq
  by_cases hx : x = id
  · -- The member has lost health, and has survived.
    subst hx
    obtain ⟨hborn, hold, -, hweak, hstrong⟩ := hfit
    have hpage := Person.toInt_age hpalive hborn hold
    obtain ⟨loss, bonus, hhealth, hage, hleft⟩ := House.survives hp hpalive
      ((Roster.isAlive_of_get? hq).trans halive)
    obtain ⟨hloss, hloss'⟩ := House.drawnLoss_mem loss
    obtain ⟨hbonus, hbonus'⟩ := House.drawnBonus_mem bonus
    rw [hleft] at hhealthOf
    have hq' : p.health - House.drawnLoss {} loss = q.health := Option.some.inj hhealthOf
    have hexact : q.health.toInt = p.health.toInt - (House.drawnLoss {} loss).toInt := by
      rw [← hq', Operation.toInt_sub (Operation.inRange_sub.2 (by omega))]
    have hpositive : 0 < q.health.toInt := by
      have hnot : ¬ q.health ≤ 0 := hq' ▸ hhealth
      rw [Int32.not_le, Int32.lt_iff_toInt_lt] at hnot
      exact hnot
    have hlimit : year.toInt - p.birthYear.toInt ≤ 80 + (House.drawnBonus {} bonus).toInt := by
      have hnot : ¬ 80 + House.drawnBonus {} bonus < p.age year := hage
      rw [Int32.not_lt, Int32.le_iff_toInt_le, House.toInt_greatestAge, hpage] at hnot
      exact hnot
    rw [← hbecomes.birthYear] at hborn hold hlimit
    exact ⟨hborn, hold, fun _ => by omega, by omega, by omega⟩
  · rw [hturned.healthOf hp fun _ => hx] at hhealthOf
    refine hfit.of_same hbecomes.birthYear (Option.some.inj hhealthOf).symm fun hrest hmem => ?_
    exact (List.mem_cons.1 hmem).elim hx hrest

/-- A turn keeps the bounds. -/
theorem turned (hv : Vigour 35 year (id :: rest) (before ++ h.dynasty :: behind) h.roster h.market)
    (hr : h.roster.Genealogy)
    (hs : Settled home (before ++ h.dynasty :: behind) h.roster h.market)
    (hmember : h.roster.isAlive id = true → id ∈ h.dynasty.family)
    (hsize : (h.passMember {} year id).2.roster.size ≤ 2 ^ 32) :
    Vigour 35 year rest (before ++ (h.passMember {} year id).2.dynasty :: behind)
      (h.passMember {} year id).2.roster (h.passMember {} year id).2.market := by
  have hturned := House.turned {} year id h
  obtain ⟨home', hs'⟩ := hs.turned hturned hmember hr hsize
  -- Somebody on the market is another one than a member.
  have hsame : ∀ {c p q}, c ∈ h.market.candidates → h.roster.get? c.person = some p →
      (h.passMember {} year id).2.roster.get? c.person = some q →
      q.birthYear = p.birthYear ∧ q.health = p.health := by
    intro c p q hc hp hq
    have houtside := (hs.homes.market c.person (List.mem_map_of_mem hc)).1
    have hhealth := hturned.healthOf hp fun hliving heq => by
      rw [heq, hs.home_member (hmember hliving)] at houtside
      cases houtside
    have hhealthOf : (h.passMember {} year id).2.roster.healthOf c.person = some q.health :=
      Roster.healthOf_of_get? hq
    rw [hhealth] at hhealthOf
    exact ⟨(hturned.continues.becomes hp hq).birthYear, (Option.some.inj hhealthOf).symm⟩
  have hcandidate : ∀ {c q}, c ∈ h.market.candidates →
      (h.passMember {} year id).2.roster.get? c.person = some q →
      ∃ p, Awaited 35 year c p ∧ q.birthYear = p.birthYear ∧ q.health = p.health := by
    intro c q hc hq
    obtain ⟨-, g, hg⟩ := hs.homes.market c.person (List.mem_map_of_mem hc)
    obtain ⟨p, hp, -⟩ := Roster.exists_of_genderOf hg
    exact ⟨p, hv.candidates c hc p hp, hsame hc hp hq⟩
  have hold : ∀ e ∈ before ++ h.dynasty :: behind, ∀ x ∈ e.family, ∀ q,
      (h.passMember {} year id).2.roster.get? x = some q → q.isAlive = true →
      Fit year rest x q := by
    intro e he x hx q hq halive
    obtain ⟨p, hp, -⟩ := Roster.exists_of_isAlive ((hs.living e he x).1 hx).1
    exact fit_turned (hv.members e he x hx p hp) hp hq halive
  constructor
  case members =>
    intro e he x hx q hq
    have halive : q.isAlive = true :=
      (Roster.isAlive_of_get? hq).symm.trans ((hs'.living e he x).1 hx).1
    refine forall_mem_replace hold (fun _ _ hall => hall) ?own e he x hx q hq halive
    intro x hx q hq halive
    rcases hturned.mem_family hr hsize hx with hin | hmarket | hnewborn
    · exact hold h.dynasty (List.mem_append_right _ List.mem_cons_self) x hin q hq halive
    · obtain ⟨c, hc, rfl⟩ := List.mem_map.1 hmarket
      obtain ⟨p, hawaited, hbirth, hhealth⟩ := hcandidate hc hq
      exact hawaited.fit hbirth hhealth rest c.person
    · obtain ⟨hbirth, hhealth⟩ := hnewborn q hq
      have hstrong : q.health.toInt = 100 := congrArg Int32.toInt hhealth
      rw [← hbirth]
      exact ⟨by omega, by omega, fun _ => by omega, by omega, by omega⟩
  case candidates =>
    intro c hc q hq
    obtain ⟨p, ⟨hborn, hyoung, hstrong⟩, hbirth, hhealth⟩ :=
      hcandidate (hturned.candidates_subset hc) hq
    rw [← hbirth] at hborn hyoung
    rw [← hhealth] at hstrong
    exact ⟨hborn, hyoung, hstrong⟩

/-! ## The market -/

section Market

variable {ds : List Dynasty} {r : Roster} {m : Market}

omit [Dice σ] in
/-- Whoever stays on the market is a year older, but has a year less to stay. -/
theorem expire (hv : Vigour 36 year waiting ds r m) : Vigour 35 year waiting ds r (m.expire r) := by
  refine ⟨hv.members, fun c' hc' p hp => ?_⟩
  obtain ⟨c, hc, rfl⟩ := List.mem_map.1 hc'
  obtain ⟨hc, hstays⟩ := List.mem_filter.1 hc
  obtain ⟨hborn, hyoung, hstrong⟩ := hv.candidates c hc p hp
  have hremaining : 0 < c.remaining.toNat := Market.remaining_of_stays hstays
  have hless : (c.remaining - 1).toNat = c.remaining.toNat - 1 :=
    UInt32.toNat_sub_of_le _ _ (UInt32.le_iff_toNat_le.2 hremaining)
  refine ⟨hborn, ?_, hstrong⟩
  show year.toInt - p.birthYear.toInt + (c.remaining - 1).toNat ≤ 35
  rw [hless]
  omega

omit [Dice σ] in
/-- A newcomer of at most thirty years is within the bounds. -/
theorem arrive (hv : Vigour 35 year waiting ds r m) (hs : Settled home ds r m)
    (hsize : r.size < 2 ^ 32) {a : Roster.Arrival} (hborn : 0 ≤ year.toInt - a.birthYear.toInt)
    (hyoung : year.toInt - a.birthYear.toInt ≤ 30) (hhealth : a.health = 100) :
    Vigour 35 year waiting ds (r.spawn a).2 (m.add r.nextId 5) := by
  constructor
  case members =>
    intro d hd x hx p hp
    obtain ⟨q, hq, -⟩ := Roster.exists_of_isAlive ((hs.living d hd x).1 hx).1
    rw [Roster.get?_spawn_of_some hq] at hp
    cases hp
    exact hv.members d hd x hx p hq
  case candidates =>
    intro c hc p hp
    rcases List.mem_append.1 hc with hc | hc
    · obtain ⟨-, g, hg⟩ := hs.homes.market c.person (List.mem_map_of_mem hc)
      obtain ⟨q, hq, -⟩ := Roster.exists_of_genderOf hg
      rw [Roster.get?_spawn_of_some hq] at hp
      cases hp
      exact hv.candidates c hc p hq
    · rw [List.mem_singleton.1 hc, Roster.get?_spawn_nextId hsize] at hp
      cases hp
      have hfive : (5 : UInt32).toNat = 5 := rfl
      refine ⟨hborn, ?_, congrArg Int32.toInt hhealth⟩
      rw [List.mem_singleton.1 hc, hfive]
      show year.toInt - a.birthYear.toInt + ((5 : Nat) : Int) ≤ 35
      omega

/-- A year on the market keeps the bounds and wraps nothing around, when the calendar goes back far
enough for the newcomer to have been born. -/
theorem update (hv : Vigour 36 year waiting ds r m) (hs : Settled home ds r m)
    (hyear : -2 ^ 31 + 30 ≤ year.toInt) (dice : σ)
    (hsize : (m.update {} year r dice).2.1.size ≤ 2 ^ 32) :
    (∀ op ∈ m.updateOperations {} year r dice, op.InRange) ∧
      Vigour 35 year waiting ds (m.update {} year r dice).2.1 (m.update {} year r dice).1 := by
  have hstale : ∀ op ∈ m.expireOperations r, op.InRange := by
    intro op hop
    obtain ⟨c, hc, rfl⟩ := List.mem_map.1 hop
    exact Operation.inRange_pred.2 (Market.remaining_of_stays (List.mem_filter.1 hc).2)
  rcases m.update_performs {} year r dice with
    ⟨dice', heq, hoperations⟩ | ⟨arrival, age, dice', heq, hbirth, hhealth, hoperations⟩
  · rw [heq, hoperations]
    exact ⟨hstale, hv.expire⟩
  · rw [heq] at hsize
    rw [heq, hoperations]
    have hroom : r.size < 2 ^ 32 := by
      change (r.spawn arrival).2.size ≤ 2 ^ 32 at hsize
      rw [Roster.size_spawn] at hsize
      exact hsize
    obtain ⟨hlow, hhigh⟩ : (16 : Int32).toInt ≤ (Dice.between 16 30 age).1.toInt ∧
        (Dice.between 16 30 age).1.toInt ≤ (30 : Int32).toInt := Dice.between_mem (by decide) age
    rw [show (16 : Int32).toInt = 16 from rfl] at hlow
    rw [show (30 : Int32).toInt = 30 from rfl] at hhigh
    have hlast := Int32.toInt_lt year
    have hinRange : (Operation.sub year (Dice.between 16 30 age).1).InRange :=
      Operation.inRange_sub.2 (by omega)
    have hborn : arrival.birthYear.toInt = year.toInt - (Dice.between 16 30 age).1.toInt := by
      rw [hbirth]
      exact Operation.toInt_sub hinRange
    refine ⟨List.forall_mem_append.2 ⟨hstale, List.forall_mem_singleton.2 hinRange⟩, ?_⟩
    exact hv.expire.arrive (hs.market_mono (m.persons_expire r)) hroom (by omega) (by omega) hhealth

omit [Dice σ] in
/-- In a new year everyone is a year older and everyone's turn is still to come. -/
theorem newYear (hv : Vigour 35 year [] ds r m) {year' : Year}
    (hyear : year'.toInt = year.toInt + 1) :
    Vigour 36 year' (ds.flatMap Dynasty.family) ds r m := by
  constructor
  case members =>
    intro d hd x hx p hp
    obtain ⟨hborn, -, hsurvivor, hweak, hstrong⟩ := hv.members d hd x hx p hp
    have hold := hsurvivor List.not_mem_nil
    refine ⟨by omega, by omega, fun hdone => ?_, hweak, hstrong⟩
    exact absurd (List.mem_flatMap.2 ⟨d, hd, hx⟩) hdone
  case candidates =>
    intro c hc p hp
    obtain ⟨hborn, hyoung, hstrong⟩ := hv.candidates c hc p hp
    exact ⟨by omega, by omega, hstrong⟩

end Market

end Vigour

/-! ## Foundings -/

omit [Dice σ] in
/-- Founders and their families are within the bounds at the founding. -/
theorem Roster.Founded.vigour {year : Year} {r : Roster} (h : r.Founded year) (ds : List Dynasty) :
    Vigour 36 year (ds.flatMap Dynasty.family) ds r .empty := by
  refine ⟨fun d hd x hx p hp => ?_, List.forall_mem_nil _⟩
  obtain ⟨hyoung, hold, hstrong⟩ := h.persons hp
  refine ⟨by omega, by omega, fun hdone => ?_, by omega, by omega⟩
  exact absurd (List.mem_flatMap.2 ⟨d, hd, hx⟩) hdone

/-- When the calendar goes back far enough for the founders to have been born, the founding wraps
nothing around. -/
theorem Dynasty.foundAll_inRange {year : Year} (hyear : -2 ^ 31 + 40 ≤ year.toInt)
    (names : List String) {r : Roster} (dice : σ) (hr : r.Founded year) :
    (∀ op ∈ foundAllOperations year 100 names r dice, op.InRange) ∧
      (foundAll year 100 names r dice).2.1.Founded year := by
  -- Whatever the dice, a founder is between twenty and forty years old.
  have hborn : ∀ dice : σ,
      (Operation.sub year (Dice.between founderMinAge founderMaxAge dice).1).InRange ∧
      20 ≤ year.toInt - (year - (Dice.between founderMinAge founderMaxAge dice).1).toInt ∧
      year.toInt - (year - (Dice.between founderMinAge founderMaxAge dice).1).toInt ≤ 40 := by
    intro dice
    have hle : founderMinAge ≤ founderMaxAge := by decide
    obtain ⟨hlow, hhigh⟩ := Dice.between_mem hle dice
    rw [show founderMinAge.toInt = 20 from rfl] at hlow
    rw [show founderMaxAge.toInt = 40 from rfl] at hhigh
    have hlast := Int32.toInt_lt year
    have hinRange :
        (Operation.sub year (Dice.between founderMinAge founderMaxAge dice).1).InRange :=
      Operation.inRange_sub.2 (by omega)
    rw [Operation.toInt_sub hinRange]
    exact ⟨hinRange, by omega, by omega⟩
  induction names generalizing r dice with
  | nil => exact ⟨List.forall_mem_nil _, hr⟩
  | cons name rest ih =>
    obtain ⟨king, queen, kingAge, queenAge, dice', hfound, hking, hqueen, hkingHealth, hqueenHealth,
      hoperations⟩ := found_performs name year 100 r dice
    obtain ⟨hkingOp, hkingYoung, hkingOld⟩ := hborn kingAge
    obtain ⟨hqueenOp, hqueenYoung, hqueenOld⟩ := hborn queenAge
    rw [← hking] at hkingYoung hkingOld
    rw [← hqueen] at hqueenYoung hqueenOld
    have hcouple := hr.withCouple ⟨hkingYoung, hkingOld, congrArg Int32.toInt hkingHealth⟩
      ⟨hqueenYoung, hqueenOld, congrArg Int32.toInt hqueenHealth⟩
    obtain ⟨hlater, hall⟩ := ih dice' hcouple
    unfold foundAllOperations foundAll
    rw [hfound, hoperations]
    refine ⟨List.forall_mem_append.2 ⟨?_, hlater⟩, hall⟩
    exact List.forall_mem_cons.2 ⟨hkingOp, List.forall_mem_singleton.2 hqueenOp⟩

/-! ## Turns of a year -/

/-- With the usual settings no operation of a turn wraps around. -/
theorem vigour_turnLaw (σ : Type) [Dice σ] (year : Year) :
    TurnLaw σ {} year (fun _ => True) Operation.InRange fun waiting ds r m =>
      r.Genealogy ∧ (∃ home, Settled home ds r m) ∧ Vigour 35 year waiting ds r m where
  grants := by
    intro before behind id rest h hmember hP
    obtain ⟨hr, ⟨home, hs⟩, hv⟩ := hP
    exact hv.inRange hr hs hmember
  turn := by
    intro before behind id rest h hmember hsize _ hP
    obtain ⟨hr, ⟨home, hs⟩, hv⟩ := hP
    have hturned := House.turned {} year id h
    exact ⟨hr.turned hturned hsize, hs.turned hturned hmember hr hsize,
      hv.turned hr hs hmember hsize⟩

end Draws

end Annals
