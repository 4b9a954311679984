import Annals.Dice.Generator
import Annals.Proofs.Family.Heirs
import Annals.Proofs.Family.Operations
/-!
# Weddings

The guards of a wedding stand in three places: the seeker's before the search, those of the
candidates in the search, and what is noted on both sides. Taken together only legal couples marry,
whoever may be on the market, and a seeker finds nobody only if there is nobody to be found. Ages
are words, so this is about ages that are less than `2 ^ 31` years apart.

* `Person.yearsApart`, `Person.abs_age_sub_le`: years between two persons, as integers.
* `Market.Free`, `Market.Eligible`: whom a seeker may marry.
* `Market.mem_suitable_iff`, `Market.findPartner_eq`: the search finds one of just these.
* `House.Wedding`, `House.Unwed`: what a wedding changes, and why there is none.
* `House.weddings_lawful`: every search for a partner ends in one of the two.
* `House.weddings_astray`: couples whom nobody would call legal.
-/

namespace Annals

/-! ## Years between two persons -/

/-- The years between the births of two persons, as far as they count in a year. -/
def Person.yearsApart (p q : Person) (year : Year) : Nat :=
  ((p.ageOperation year).exact - (q.ageOperation year).exact).natAbs

theorem Person.age_sub_age (p q : Person) (year : Year) :
    (p.age year - q.age year).toInt =
      ((p.ageOperation year).exact - (q.ageOperation year).exact).bmod (2 ^ 32) := by
  unfold age ageOperation Operation.exact
  rw [Int32.toInt_sub, Int32.toInt_sub, Int32.toInt_sub, Int.sub_bmod_bmod, Int.bmod_sub_bmod]

/-- The difference of two ages that fits into a word is the one of the integers. -/
theorem Person.abs_age_sub_le {p q : Person} {year : Year} {limit : Int32}
    (hfits : p.yearsApart q year < 2 ^ 31) :
    (p.age year - q.age year).abs ≤ limit ↔ (p.yearsApart q year : Int) ≤ limit.toInt := by
  have hgap := age_sub_age p q year
  unfold yearsApart at hfits ⊢
  generalize (p.ageOperation year).exact - (q.ageOperation year).exact = gap at hgap hfits ⊢
  rw [Int.bmod_eq_of_le (by omega) (by omega)] at hgap
  have hrange : (Operation.abs (p.age year - q.age year)).InRange := by
    rw [Operation.inRange_abs, hgap]
    omega
  rw [Int32.le_iff_toInt_le, Operation.toInt_abs hrange, hgap]

/-! ## The search for a partner -/

namespace Market

variable {m : Market} {s : MarriageSettings} {seeker : Person} {year : Year} {r : Roster}
  {x : PersonId}

/-- Who is free for a seeker: a candidate other than the seeker who lives, has never been married
and is of the other gender. -/
structure Free (m : Market) (seeker : Person) (r : Roster) (x : PersonId) : Prop where
  candidate : x ∈ m.persons
  other : x ≠ seeker.id
  alive : r.isAlive x = true
  single : r.partnersOf x = []
  opposite : r.genderOf x = some seeker.gender.opposite

/-- Whom a seeker may marry: somebody who is free and near in age. -/
structure Eligible (m : Market) (s : MarriageSettings) (seeker : Person) (year : Year)
    (r : Roster) (x : PersonId) : Prop extends Free m seeker r x where
  near : ∀ q, r.get? x = some q → (q.yearsApart seeker year : Int) ≤ s.maxAgeDifference.toInt

theorem gender_ne_iff {g g' : Gender} : g ≠ g' ↔ g = g'.opposite := by
  cases g <;> cases g' <;> decide

/-- The suitable candidates are those who are free and, as far as words tell, near in age. -/
theorem mem_suitable_iff (h : r.Numbered) :
    x ∈ m.suitable s seeker year r ↔ m.Free seeker r x ∧
      ∀ q, r.get? x = some q → (q.age year - seeker.age year).abs ≤ s.maxAgeDifference := by
  rw [mem_suitable h]
  unfold suits
  simp only [Bool.and_eq_true, decide_eq_true_eq, List.isEmpty_iff, gender_ne_iff]
  constructor
  · rintro ⟨hcandidate, q, hq, ⟨⟨⟨hother, halive⟩, hgender⟩, hsingle⟩, hnear⟩
    obtain rfl : q.id = x := h.id_eq hq
    refine ⟨?free, fun q' hq' => ?near⟩
    case free =>
      exact
        { candidate := hcandidate, other := hother
          alive := (Roster.isAlive_of_get? hq).trans halive
          single := (Roster.partnersOf_of_get? hq).trans hsingle
          opposite := (Roster.genderOf_of_get? hq).trans (congrArg some hgender) }
    case near =>
      obtain rfl : q = q' := Option.some.inj (hq.symm.trans hq')
      exact hnear
  · rintro ⟨hfree, hnear⟩
    obtain ⟨q, hq, halive⟩ := Roster.exists_of_isAlive hfree.alive
    obtain rfl : q.id = x := h.id_eq hq
    have hsingle := (Roster.partnersOf_of_get? hq).symm.trans hfree.single
    have hgender := Option.some.inj ((Roster.genderOf_of_get? hq).symm.trans hfree.opposite)
    exact ⟨hfree.candidate, q, hq, ⟨⟨⟨hfree.other, halive⟩, hgender⟩, hsingle⟩, hnear q hq⟩

/-- Who may be married is suitable: a limit on years is a word, and so are the years within it. -/
theorem Eligible.suitable (h : r.Numbered) (he : m.Eligible s seeker year r x) :
    x ∈ m.suitable s seeker year r := by
  refine (mem_suitable_iff h).2 ⟨he.toFree, fun q hq => ?_⟩
  have hnear := he.near q hq
  have hlimit := Int32.toInt_lt s.maxAgeDifference
  exact (Person.abs_age_sub_le (by omega)).2 hnear

/-- Who is suitable is free, and near in age unless the ages are too far apart for words. -/
theorem near_of_suitable (h : r.Numbered) (hx : x ∈ m.suitable s seeker year r) {q : Person}
    (hq : r.get? x = some q) (hfits : q.yearsApart seeker year < 2 ^ 31) :
    (q.yearsApart seeker year : Int) ≤ s.maxAgeDifference.toInt :=
  (Person.abs_age_sub_le hfits).1 (((mem_suitable_iff h).1 hx).2 q hq)

variable {σ : Type} [Dice σ]

/-- Without anybody suitable nothing is drawn. Else a place is drawn, and each suitable candidate
has one. -/
theorem findPartner_eq (m : Market) (s : MarriageSettings) (seeker : Person) (year : Year)
    (r : Roster) :
    ((∀ x, x ∉ m.suitable s seeker year r) ∧
      ∀ dice : σ, m.findPartner s seeker year r dice = (none, dice)) ∨
    ∃ (n : Nat) (pick : Fin (n + 1) → PersonId),
      (∀ x, x ∈ m.suitable s seeker year r ↔ ∃ k, pick k = x) ∧
      ∀ dice : σ, m.findPartner s seeker year r dice =
        (some (pick (Dice.long n dice).1), (Dice.long n dice).2) := by
  unfold findPartner
  cases m.suitable s seeker year r with
  | nil => exact .inl ⟨fun _ => List.not_mem_nil, fun _ => rfl⟩
  | cons first rest =>
    exact .inr ⟨rest.length, (first :: rest).get, fun x => List.mem_iff_get, fun _ => rfl⟩

end Market

/-! ## Weddings -/

namespace House

variable {σ : Type} [Dice σ] {s : MarriageSettings} {year : Year} {id partner : PersonId}
  {p q : Person} {h h' : House σ} {event : FamilyEvent}

/-- A wedding of a member `p` and a candidate `q`: both may marry, each is noted as the last partner
of the other, and the candidate leaves the market for the family. Nobody else is touched. What is
said about years holds as long as words can tell it. -/
structure Wedding (s : MarriageSettings) (year : Year) (id partner : PersonId) (p q : Person)
    (h : House σ) (event : FamilyEvent) (h' : House σ) : Prop where
  seeker : h.roster.get? id = some p
  grown : s.minAge ≤ p.age year
  old : (p.ageOperation year).InRange → s.minAge.toInt ≤ (p.ageOperation year).exact
  widowed : ∀ x ∈ p.partners, h.roster.isAlive x = false
  chosen : h.roster.get? partner = some q
  distinct : partner ≠ id
  free : h.market.Free p h.roster partner
  near : q.yearsApart p year < 2 ^ 31 → (q.yearsApart p year : Int) ≤ s.maxAgeDifference.toInt
  told : event = h.event year (.marriage p.name q.name (p.age year))
  noted : h'.roster.get? id = some { p with partners := p.partners ++ [partner] }
  notedBack : h'.roster.get? partner = some { q with partners := [id] }
  others : ∀ x, x ≠ id → x ≠ partner → h'.roster.get? x = h.roster.get? x
  size : h'.roster.size = h.roster.size
  market : h'.market.candidates = h.market.candidates.filter fun c => c.person ≠ partner
  left : partner ∉ h'.market.persons
  dynasty : h'.dynasty = h.dynasty.join partner
  joined : partner ∈ h'.dynasty.family

/-- Why somebody does not marry. Nothing is drawn before the chance to look for a partner, and
nothing after it; a search fails only when there is nobody to marry. -/
inductive Unwed (s : MarriageSettings) (year : Year) (id : PersonId) (h : House σ) :
    House σ → Prop
  | unknown (hget : h.roster.get? id = none) : Unwed s year id h h
  | young {p : Person} (hget : h.roster.get? id = some p) (hyoung : p.age year < s.minAge) :
      Unwed s year id h h
  | taken {partner : PersonId} (hpartner : h.roster.livingPartner? id = some partner) :
      Unwed s year id h h
  | unwilling {p : Person} (hget : h.roster.get? id = some p)
      (hroll : (Dice.roll h.dice).1.reaches (s.chanceAt (p.age year)) = true) :
      Unwed s year id h { h with dice := (Dice.roll h.dice).2 }
  | alone {p : Person} (hget : h.roster.get? id = some p)
      (hnobody : ∀ x, ¬ h.market.Eligible s p year h.roster x) :
      Unwed s year id h { h with dice := (Dice.roll h.dice).2 }

omit [Dice σ] in
/-- The guards of the seeker and of the candidate make a wedding. -/
theorem wedding_married (hr : h.roster.Numbered) (hget : h.roster.get? id = some p)
    (hgrown : ¬ p.age year < s.minAge) (hsingle : h.roster.livingPartner? id = none)
    (hsuitable : partner ∈ h.market.suitable s p year h.roster) (dice : σ) :
    ∃ q, Wedding s year id partner p q h
      (h.event year (.marriage ((h.roster.marry id partner).nameOf id)
        ((h.roster.marry id partner).nameOf partner) (p.age year)))
      (h.married id partner dice) := by
  have hfree := ((Market.mem_suitable_iff hr).1 hsuitable).1
  obtain ⟨q, hq, -⟩ := Roster.exists_of_isAlive hfree.alive
  have hdistinct : partner ≠ id := hr.id_eq hget ▸ hfree.other
  have hwidowed : ∀ x ∈ p.partners, h.roster.isAlive x = false := fun x hx =>
    Roster.widowed_of_livingPartner? hsingle ((Roster.partnersOf_of_get? hget).symm ▸ hx)
  -- A living candidate is none of the former partners, and a single one has no partner to repeat.
  have hnew : partner ∉ p.partners := by
    intro hmem
    have hdead := hwidowed partner hmem
    rw [hfree.alive] at hdead
    cases hdead
  have hqsingle : q.partners = [] :=
    (Roster.partnersOf_of_get? hq).symm.trans hfree.single
  have hnobody : id ∉ q.partners := by
    rw [hqsingle]
    exact List.not_mem_nil
  have hmarried := Roster.get?_marry hget hq hdistinct.symm hnew hnobody
  have hnoted : (h.roster.marry id partner).get? id =
      some { p with partners := p.partners ++ [partner] } := by
    rw [hmarried, if_pos rfl]
  have hnotedBack : (h.roster.marry id partner).get? partner =
      some { q with partners := [id] } := by
    rw [hmarried, if_neg hdistinct, if_pos rfl, hqsingle]
    rfl
  have hnames : (h.roster.marry id partner).nameOf id = p.name ∧
      (h.roster.marry id partner).nameOf partner = q.name := by
    unfold Roster.nameOf
    rw [hnoted, hnotedBack]
    exact ⟨rfl, rfl⟩
  have hold : (p.ageOperation year).InRange → s.minAge.toInt ≤ (p.ageOperation year).exact := by
    intro hrange
    have hexact : (p.age year).toInt = (p.ageOperation year).exact := Operation.toInt_sub hrange
    rw [← hexact]
    exact Int32.le_iff_toInt_le.1 (Int32.not_lt.1 hgrown)
  refine ⟨q, ?_⟩
  rw [hnames.1, hnames.2]
  exact
    { seeker := hget, grown := Int32.not_lt.1 hgrown, old := hold, widowed := hwidowed, chosen := hq
      distinct := hdistinct, free := hfree, near := Market.near_of_suitable hr hsuitable hq
      told := rfl
      noted := hnoted, notedBack := hnotedBack
      others := fun x hid hpartner => by
        show (h.roster.marry id partner).get? x = _
        rw [hmarried, if_neg hid, if_neg hpartner]
      size := Roster.size_marry .., market := rfl
      left := fun hmem => (Market.mem_remove.1 hmem).2 rfl, dynasty := rfl
      joined := Dynasty.mem_join.2 (.inr rfl) }

/-- A member either has a wedding or stays without one. -/
theorem tryMarry_lawful (s : MarriageSettings) (year : Year) (id : PersonId)
    (hr : h.roster.Numbered) :
    (∃ event partner p q, (tryMarry s year id h).1 = some event ∧
      Wedding s year id partner p q h event (tryMarry s year id h).2) ∨
    ((tryMarry s year id h).1 = none ∧ Unwed s year id h (tryMarry s year id h).2) := by
  unfold tryMarry
  cases hget : h.roster.get? id with
  | none => exact .inr ⟨rfl, .unknown hget⟩
  | some p =>
    dsimp only
    split
    case isTrue hguard =>
      rw [Bool.or_eq_true, decide_eq_true_eq, Option.isSome_iff_exists] at hguard
      rcases hguard with hyoung | ⟨partner, hpartner⟩
      · exact .inr ⟨rfl, .young hget hyoung⟩
      · exact .inr ⟨rfl, .taken hpartner⟩
    case isFalse hguard =>
      have hguards : ¬ p.age year < s.minAge ∧ h.roster.livingPartner? id = none := by
        simpa using hguard
      split
      case isTrue hroll => exact .inr ⟨rfl, .unwilling hget hroll⟩
      case isFalse =>
        rcases h.market.findPartner_eq (σ := σ) s p year h.roster with
          ⟨hnobody, hfind⟩ | ⟨n, pick, hpick, hfind⟩
        · rw [hfind]
          refine .inr ⟨rfl, .alone hget fun x hx => ?_⟩
          exact hnobody x (hx.suitable hr)
        · -- Whoever is picked is suitable, and so may be married.
          rw [hfind]
          have hmem := (hpick _).2 ⟨(Dice.long n (Dice.roll h.dice).2).1, rfl⟩
          obtain ⟨q, hwedding⟩ := wedding_married hr hget hguards.1 hguards.2 hmem
            (Dice.long n (Dice.roll h.dice).2).2
          exact .inl ⟨_, _, p, q, rfl, hwedding⟩

/-- Every marriage that is made is legal, and no legal match is missed: a seeker does not marry only
for one of the reasons above, and a search picks one of those who may be married, whom alone it can
pick as long as their ages are less than `2 ^ 31` years from the seeker's. -/
theorem weddings_lawful (s : MarriageSettings) (year : Year) (id : PersonId) (h : House σ)
    (hr : h.roster.Numbered) :
    (∀ event h', tryMarry s year id h = (some event, h') →
      ∃ partner p q, Wedding s year id partner p q h event h') ∧
    (∀ h', tryMarry s year id h = (none, h') → Unwed s year id h h') ∧
    ∀ seeker : Person,
      ((∀ x, ¬ h.market.Eligible s seeker year h.roster x) ∧
        ∀ dice : σ, h.market.findPartner s seeker year h.roster dice = (none, dice)) ∨
      ∃ (n : Nat) (pick : Fin (n + 1) → PersonId),
        (∀ x, h.market.Eligible s seeker year h.roster x → ∃ k, pick k = x) ∧
        (∀ k, h.market.Free seeker h.roster (pick k) ∧
          ((∀ q, h.roster.get? (pick k) = some q → q.yearsApart seeker year < 2 ^ 31) →
            h.market.Eligible s seeker year h.roster (pick k))) ∧
        ∀ dice : σ, h.market.findPartner s seeker year h.roster dice =
          (some (pick (Dice.long n dice).1), (Dice.long n dice).2) := by
  refine ⟨?weds, ?waits, ?search⟩
  case weds =>
    intro event h' hwed
    rcases tryMarry_lawful s year id hr with ⟨event', partner, p, q, hevent, hwedding⟩ | ⟨hnone, -⟩
    · rw [hwed] at hevent hwedding
      cases hevent
      exact ⟨partner, p, q, hwedding⟩
    · rw [hwed] at hnone
      cases hnone
  case waits =>
    intro h' hunwed
    rcases tryMarry_lawful s year id hr with ⟨event, _, _, _, hevent, -⟩ | ⟨-, hreason⟩
    · rw [hunwed] at hevent
      cases hevent
    · rw [hunwed] at hreason
      exact hreason
  case search =>
    intro seeker
    rcases h.market.findPartner_eq (σ := σ) s seeker year h.roster with
      ⟨hnobody, hfind⟩ | ⟨n, pick, hpick, hfind⟩
    · exact .inl ⟨fun x hx => hnobody x (hx.suitable hr), hfind⟩
    · refine .inr ⟨n, pick, fun x hx => (hpick x).1 (hx.suitable hr), fun k => ?_, hfind⟩
      have hsuitable := (hpick (pick k)).2 ⟨k, rfl⟩
      have hfree := ((Market.mem_suitable_iff hr).1 hsuitable).1
      exact ⟨hfree, fun hfits =>
        ⟨hfree, fun q hq => Market.near_of_suitable hr hsuitable hq (hfits q hq)⟩⟩

/-- A widow of thirty among candidates who may not be married and one who may: her dead husband, a
married man, somebody unknown, she herself, a married woman, an old man, and a man near her age who
is listed twice. -/
def courtship : House Generator where
  dynasty := .ofCouple "House Nerdival" ⟨0⟩ ⟨1⟩
  roster :=
    let couple := ((Roster.empty.spawn (.noble "Baelor" .male 968)).2.spawn
      (.noble "Kyra" .female 970)).2.marry ⟨0⟩ ⟨1⟩
    let others := ((couple.spawn (.noble "Aric" .male 970)).2.spawn
      (.noble "Lyra" .female 971)).2.marry ⟨2⟩ ⟨3⟩
    ((others.spawn (.noble "Orion" .male 930)).2.spawn (.noble "Silas" .male 972)).2.kill ⟨0⟩ 995
  market :=
    { candidates :=
        [⟨⟨0⟩, 3⟩, ⟨⟨2⟩, 3⟩, ⟨⟨5⟩, 2⟩, ⟨⟨9⟩, 3⟩, ⟨⟨1⟩, 3⟩, ⟨⟨3⟩, 3⟩, ⟨⟨4⟩, 3⟩, ⟨⟨5⟩, 1⟩] }
  dice := .stepping 0 0

theorem courtship_numbered : courtship.roster.Numbered :=
  (((((((Roster.numbered_empty.spawn _).spawn _).marry ⟨0⟩ ⟨1⟩).spawn _).spawn _).marry ⟨2⟩
    ⟨3⟩).spawn _).spawn _ |>.kill ⟨0⟩ 995

/-- The widow marries the one man whom she may marry, and the married man marries nobody. -/
theorem weddings_lawful_courtship :
    courtship.roster.Numbered ∧
    (∃ partner p q, Wedding {} 1000 ⟨1⟩ partner p q courtship
      { year := 1000, dynasty := "House Nerdival", deed := .marriage "Kyra" "Silas" 30 }
      (tryMarry {} 1000 ⟨1⟩ courtship).2 ∧
      (p.ageOperation 1000).InRange ∧ q.yearsApart p 1000 < 2 ^ 31) ∧
    (tryMarry {} 1000 ⟨1⟩ courtship).2.market.persons = [⟨0⟩, ⟨2⟩, ⟨9⟩, ⟨1⟩, ⟨3⟩, ⟨4⟩] ∧
    Unwed {} 1000 ⟨2⟩ courtship (tryMarry {} 1000 ⟨2⟩ courtship).2 := by
  have hevent : (tryMarry {} 1000 ⟨1⟩ courtship).1 = some
      { year := 1000, dynasty := "House Nerdival", deed := .marriage "Kyra" "Silas" 30 } := by
    decide +kernel
  have hnone : (tryMarry {} 1000 ⟨2⟩ courtship).1 = none := by decide +kernel
  have hpersons : (tryMarry {} 1000 ⟨1⟩ courtship).2.market.persons =
      [⟨0⟩, ⟨2⟩, ⟨9⟩, ⟨1⟩, ⟨3⟩, ⟨4⟩] := by
    decide +kernel
  obtain ⟨hwed, -, -⟩ := weddings_lawful {} 1000 ⟨1⟩ courtship courtship_numbered
  obtain ⟨-, hunwed, -⟩ := weddings_lawful {} 1000 ⟨2⟩ courtship courtship_numbered
  obtain ⟨partner, p, q, hwedding⟩ :=
    hwed _ (tryMarry {} 1000 ⟨1⟩ courtship).2 (Prod.ext hevent rfl)
  have hpartner : partner = ⟨5⟩ := by
    have hfamily : (tryMarry {} 1000 ⟨1⟩ courtship).2.dynasty.family = [⟨0⟩, ⟨1⟩, ⟨5⟩] := by
      decide +kernel
    have hwidow : courtship.roster.isAlive ⟨0⟩ = false := by decide +kernel
    have hjoined := hwedding.joined
    have halive := hwedding.free.alive
    rw [hfamily, List.mem_cons, List.mem_cons, List.mem_singleton] at hjoined
    rcases hjoined with rfl | rfl | rfl
    · rw [hwidow] at halive
      cases halive
    · exact absurd rfl hwedding.distinct
    · rfl
  have hold : (courtship.roster.get? ⟨1⟩).all fun p => decide (p.ageOperation 1000).InRange := by
    decide +kernel
  have hnear : (courtship.roster.get? ⟨1⟩).all fun p => (courtship.roster.get? ⟨5⟩).all fun q =>
      decide (q.yearsApart p 1000 < 2 ^ 31) := by
    decide +kernel
  have hchosen := hwedding.chosen
  rw [hpartner] at hchosen
  rw [hwedding.seeker, Option.all_some, decide_eq_true_eq] at hold
  rw [hwedding.seeker, hchosen, Option.all_some, Option.all_some, decide_eq_true_eq] at hnear
  exact ⟨courtship_numbered, ⟨partner, p, q, hwedding, hold, hnear⟩, hpersons,
    hunwed _ (Prod.ext hnone rfl)⟩

/-- A man on his own, and a woman on the market. -/
def suitor (man woman : Person) : House Generator where
  dynasty := .ofCouple "House Nerdival" ⟨0⟩ ⟨0⟩
  roster := ⟨#[man, woman]⟩
  market := { candidates := [⟨⟨1⟩, 1⟩] }
  dice := .stepping 0 0

theorem suitor_numbered {man woman : Person} (hman : man.id = ⟨0⟩) (hwoman : woman.id = ⟨1⟩) :
    (suitor man woman).roster.Numbered := by
  intro i p hp
  match i with
  | 0 =>
    cases hp
    exact hman
  | 1 =>
    cases hp
    exact hwoman
  | _ + 2 => cases hp

/-- A woman who is noted with another id than hers sends somebody into the family who is not on the
market. A gap of `2 ^ 31` years passes for a small one. And a man who has died stays as old as he
was at his death. -/
theorem weddings_astray :
    let man (born : Int32) := (Roster.Arrival.noble "Baelor" .male born).person ⟨0⟩
    let woman (born : Int32) := (Roster.Arrival.noble "Kyra" .female born).person ⟨1⟩
    let mistaken := suitor (man 970) { woman 970 with id := ⟨2⟩ }
    let distant := suitor (man (-20)) (woman 2147483628)
    let late := suitor { man 950 with deathYear := some 980 } (woman 970)
    ((tryMarry {} 1000 ⟨0⟩ mistaken).1.isSome = true ∧
      ⟨2⟩ ∈ (tryMarry {} 1000 ⟨0⟩ mistaken).2.dynasty.family ∧
      ⟨2⟩ ∉ mistaken.market.persons ∧ ⟨2⟩ ∉ mistaken.dynasty.family) ∧
    ((tryMarry {} 0 ⟨0⟩ distant).1.isSome = true ∧ distant.roster.Numbered ∧
      ¬ ((woman 2147483628).yearsApart (man (-20)) 0 : Int) ≤ (10 : Int32).toInt) ∧
    (tryMarry {} 1000 ⟨0⟩ late).1.isSome = true ∧ late.roster.Numbered ∧
      ¬ ((woman 970).yearsApart (man 950) 1000 : Int) ≤ (10 : Int32).toInt := by
  intro man woman mistaken distant late
  have hmistaken : (tryMarry {} 1000 ⟨0⟩ mistaken).1.isSome = true ∧
      ⟨2⟩ ∈ (tryMarry {} 1000 ⟨0⟩ mistaken).2.dynasty.family ∧
      ⟨2⟩ ∉ mistaken.market.persons ∧ ⟨2⟩ ∉ mistaken.dynasty.family := by
    decide +kernel
  have hdistant : (tryMarry {} 0 ⟨0⟩ distant).1.isSome = true ∧
      ¬ ((woman 2147483628).yearsApart (man (-20)) 0 : Int) ≤ (10 : Int32).toInt := by
    decide +kernel
  have hlate : (tryMarry {} 1000 ⟨0⟩ late).1.isSome = true ∧
      ¬ ((woman 970).yearsApart (man 950) 1000 : Int) ≤ (10 : Int32).toInt := by
    decide +kernel
  exact ⟨hmistaken, ⟨hdistant.1, suitor_numbered rfl rfl, hdistant.2⟩,
    hlate.1, suitor_numbered rfl rfl, hlate.2⟩

end House

end Annals
