import Annals.Dice.Generator
import Annals.Proofs.Family.Turn
import Annals.Proofs.Operations
/-!
# The time of a candidate on the market

A year lets candidates go before it counts their years down. So a candidate who comes with `k` years
is there after each of the next `k` years, the last time with no year left, and goes in the year
after that.

* `Market.Leaves`: why a candidate leaves; `Market.candidates_expire`: who stays, and how long.
* `Market.Newcomer`, `Market.exists_joined`: who comes in a year.
* `Market.Move`: a year on the market, or a change by hand. `Move.candidates_apply`: a move deals
  with each candidate alone.
* `Market.exists_after_spared`: what becomes of one entry in any number of moves.
* `Market.candidates_lifetime`: a year on the market, and the time of a candidate.
-/

namespace Annals

/-- A candidate with a year less to stay. -/
def Candidate.older (c : Candidate) : Candidate := { c with remaining := c.remaining - 1 }

namespace Market

variable {σ : Type} {r : Roster} {c : Candidate}

/-! ## Who leaves -/

/-- Why a candidate leaves in a year. -/
inductive Leaves (r : Roster) (c : Candidate) : Prop where
  | expired (hyears : c.remaining = 0)
  | unknown (hget : r.get? c.person = none)
  | dead {p : Person} (hget : r.get? c.person = some p) (hdead : p.isAlive = false)
  | married {p : Person} (hget : r.get? c.person = some p) (hpartners : p.partners ≠ [])

theorem stays_eq_false_iff : stays r c = false ↔ Leaves r c := by
  have hyears : (0 < c.remaining) ↔ ¬ c.remaining = 0 := UInt32.pos_iff_ne_zero
  unfold stays
  constructor
  · intro h
    by_cases hzero : c.remaining = 0
    · exact .expired hzero
    · cases hget : r.get? c.person with
      | none => exact .unknown hget
      | some p =>
        by_cases halive : p.isAlive = false
        · exact .dead hget halive
        · refine .married hget fun hnone => halive ?_
          simpa [hget, hyears, hzero, hnone] using h
  · intro h
    rcases h with hzero | hget | ⟨hget, hdead⟩ | ⟨hget, hpartners⟩
    · simp [hzero]
    · simp [hget]
    · simp [hget, hdead]
    · simp [hget, hpartners]

instance (r : Roster) (c : Candidate) : Decidable (Leaves r c) :=
  decidable_of_iff (stays r c = false) stays_eq_false_iff

/-- The candidates who do not leave keep their order, each with a year less. -/
theorem candidates_expire (m : Market) (r : Roster) :
    (m.expire r).candidates =
      (m.candidates.filter fun c => ¬ Leaves r c).map Candidate.older := by
  have hstays : ∀ c ∈ m.candidates, stays r c = decide (¬ Leaves r c) := by
    intro c _
    rw [Bool.eq_iff_iff, decide_eq_true_iff, ← stays_eq_false_iff, Bool.not_eq_false]
  exact congrArg (List.map Candidate.older) (List.filter_congr hstays)

/-- The years of whoever does not leave are counted down without wrapping around. -/
theorem remaining_older (h : ¬ Leaves r c) :
    c.older.remaining.toNat + 1 = c.remaining.toNat := by
  have hpos : 0 < c.remaining := UInt32.pos_iff_ne_zero.2 fun hzero => h (.expired hzero)
  have hless : (c.remaining - 1).toNat = c.remaining.toNat - 1 :=
    UInt32.toNat_sub_of_le _ _ (UInt32.le_iff_toNat_le.2 hpos)
  have htoNat := UInt32.lt_iff_toNat_lt.1 hpos
  show (c.remaining - 1).toNat + 1 = _
  rw [hless]
  exact Nat.sub_add_cancel htoNat

theorem leaves_iff_of_single (halive : r.isAlive c.person = true)
    (hsingle : r.partnersOf c.person = []) : Leaves r c ↔ c.remaining = 0 := by
  obtain ⟨p, hget, hlives⟩ := Roster.exists_of_isAlive halive
  rw [Roster.partnersOf_of_get? hget] at hsingle
  constructor
  · intro h
    rcases h with hzero | hnone | ⟨hget', hdead⟩ | ⟨hget', hpartners⟩
    · exact hzero
    · rw [hget] at hnone
      cases hnone
    · cases hget.symm.trans hget'
      rw [hlives] at hdead
      cases hdead
    · cases hget.symm.trans hget'
      exact absurd hsingle hpartners
  · exact .expired

/-! ## Who comes -/

/-- Somebody who comes to the market in a year. -/
structure Newcomer (settings : MarriageSettings) (year : Year) (r : Roster) (p : Person) :
    Prop where
  id_eq : p.id = r.nextId
  alive : p.isAlive = true
  single : p.partners = []
  orphan : p.parents = none
  grown : settings.candidateMinAge.toInt ≤ (p.age year).toInt
  young : (p.age year).toInt ≤ max settings.candidateMinAge.toInt settings.candidateMaxAge.toInt

section Years

variable [Dice σ] (m : Market) (settings : FamilySettings) (year : Year) (r : Roster) (dice : σ)

/-- Whatever is drawn for a newcomer, the age lies between the bounds. -/
theorem newcomer_person :
    Newcomer settings.marriage year r ((newcomer settings year dice).1.person r.nextId) := by
  have hyears : ∀ age : Int32, year - (year - age) = age := by grind
  let drawn := Dice.givenName (Dice.gender dice).1 (Dice.gender dice).2
  have hage := Dice.between_mem_max settings.marriage.candidateMinAge
    settings.marriage.candidateMaxAge drawn.2
  constructor
  case id_eq | alive | single | orphan => rfl
  case grown =>
    show _ ≤ (year - (year - _)).toInt
    rw [hyears]
    exact hage.1
  case young =>
    show (year - (year - _)).toInt ≤ _
    rw [hyears]
    exact hage.2

/-- Behind those who stay comes somebody new or nobody, depending on a roll, and whoever comes is
the last in the roster. -/
theorem exists_joined :
    ∃ joined : Option Person,
      (∀ p ∈ joined, Newcomer settings.marriage year r p) ∧
      (joined = none ↔
        (Dice.roll dice).1.reaches settings.marriage.newCandidateChance = true) ∧
      (m.update settings year r dice).1.candidates = (m.expire r).candidates ++
        (joined.map fun p => ⟨p.id, settings.marriage.candidateYears⟩).toList ∧
      (m.update settings year r dice).2.1.toList = r.toList ++ joined.toList ∧
      (r.size < 2 ^ 32 → (m.update settings year r dice).2.1.get? r.nextId = joined) := by
  unfold update
  dsimp only
  split
  case isTrue hroll =>
    refine ⟨none, by simp, by simp [hroll], by simp, by simp, fun hsize => ?_⟩
    exact Roster.get?_nextId hsize
  case isFalse hroll =>
    have hperson := newcomer_person settings year r (Dice.roll dice).2
    generalize (newcomer settings year (Dice.roll dice).2).1 = arrival at hperson ⊢
    refine ⟨some (arrival.person r.nextId), ?_, by simp [hroll], rfl, ?_, fun hsize => ?_⟩
    · intro p hp
      cases hp
      exact hperson
    · exact Array.toList_push
    · exact Roster.get?_spawn_nextId hsize arrival

/-- Nobody in the roster is changed. -/
theorem get?_update_of_some {id : PersonId} {p : Person} (h : r.get? id = some p) :
    (m.update settings year r dice).2.1.get? id = some p := by
  rcases m.update_cases settings year r dice with ⟨dice', hupdate⟩ | ⟨arrival, dice', hupdate⟩
  · rw [hupdate]
    exact h
  · rw [hupdate]
    exact Roster.get?_spawn_of_some h arrival

end Years

/-! ## Moves -/

/-- What can happen to a market: a year passes, with whatever roster and dice there are by then, or
somebody is put on the market or taken off it. -/
inductive Move (σ : Type) where
  | update (settings : FamilySettings) (year : Year) (roster : Roster) (dice : σ)
  | add (person : PersonId) (years : UInt32)
  | remove (person : PersonId)

namespace Move

/-- Whether a move is a year. -/
def isYear : Move σ → Bool
  | .update .. => true
  | _ => false

/-- What becomes of a candidate in a move. -/
def keep : Move σ → Candidate → Option Candidate
  | .update _ _ r _, c => if Leaves r c then none else some c.older
  | .add _ _, c => some c
  | .remove x, c => if c.person = x then none else some c

/-- A move that neither takes a person off the market nor finds the person dead or married. -/
def Spares (x : PersonId) : Move σ → Prop
  | .update _ _ r _ => r.isAlive x = true ∧ r.partnersOf x = []
  | .add _ _ => True
  | .remove y => y ≠ x

instance (x : PersonId) (move : Move σ) : Decidable (move.Spares x) :=
  match move with
  | .update _ _ r _ => inferInstanceAs (Decidable (r.isAlive x = true ∧ r.partnersOf x = []))
  | .add _ _ => inferInstanceAs (Decidable True)
  | .remove y => inferInstanceAs (Decidable (y ≠ x))

variable [Dice σ]

/-- The market after a move. -/
def apply (m : Market) : Move σ → Market
  | .update settings year r dice => (m.update settings year r dice).1
  | .add person years => m.add person years
  | .remove person => m.remove person

/-- Who comes in a move. -/
def brings (move : Move σ) : List Candidate := (move.apply .empty).candidates

/-- A move deals with each candidate alone and puts whoever comes behind all others. -/
theorem candidates_apply (m : Market) (move : Move σ) :
    (move.apply m).candidates = m.candidates.filterMap move.keep ++ move.brings := by
  cases move with
  | update settings year r dice =>
    have hkeep : (m.expire r).candidates =
        m.candidates.filterMap (keep (.update settings year r dice)) := by
      rw [candidates_expire]
      induction m.candidates with
      | nil => rfl
      | cons c rest ih =>
        by_cases hleaves : Leaves r c
        · simpa [keep, hleaves] using ih
        · simpa [keep, hleaves] using ih
    rw [← hkeep]
    unfold brings apply Market.update
    dsimp only
    split
    · exact (List.append_nil _).symm
    · rfl
  | add person years =>
    have hkeep : m.candidates.filterMap (keep (.add (σ := σ) person years)) = m.candidates :=
      List.filterMap_some
    rw [hkeep]
    rfl
  | remove person =>
    have hkeep : (m.remove person).candidates =
        m.candidates.filterMap (keep (.remove (σ := σ) person)) := by
      unfold Market.remove
      induction m.candidates with
      | nil => rfl
      | cons c rest ih =>
        by_cases hperson : c.person = person
        · simpa [keep, hperson] using ih
        · simpa [keep, hperson] using ih
    rw [← hkeep]
    exact (List.append_nil _).symm

omit [Dice σ] in
/-- A year takes somebody whom it spares off the market only when no year is left. -/
theorem keep_of_spares {x : PersonId} {k : UInt32} {move : Move σ} (h : move.Spares x) :
    move.keep ⟨x, k⟩ =
      if move.isYear then (if k = 0 then none else some ⟨x, k - 1⟩) else some ⟨x, k⟩ := by
  cases move with
  | update settings year r dice =>
    have hleaves : Leaves r ⟨x, k⟩ ↔ k = 0 := leaves_iff_of_single h.1 h.2
    by_cases hzero : k = 0
    · subst hzero
      have hgone : Leaves r ⟨x, 0⟩ := hleaves.2 rfl
      simp [keep, isYear, hgone]
    · have hstays : ¬ Leaves r ⟨x, k⟩ := fun hgone => hzero (hleaves.1 hgone)
      simp [keep, isYear, hstays, hzero, Candidate.older]
  | add person years => rfl
  | remove y =>
    have hne : ¬ x = y := fun heq => h heq.symm
    simp [keep, isYear, hne]

end Move

/-! ## Any number of moves -/

/-- What is on the market of somebody who came with `k` years, after `n` years. -/
def leftOf (x : PersonId) (k : UInt32) (n : Nat) : List Candidate :=
  if n ≤ k.toNat then [⟨x, UInt32.ofNat (k.toNat - n)⟩] else []

theorem leftOf_zero (x : PersonId) (k : UInt32) : leftOf x k 0 = [⟨x, k⟩] := by
  simp [leftOf]

theorem leftOf_zero_succ (x : PersonId) (n : Nat) : leftOf x 0 (n + 1) = [] := by
  simp [leftOf]

theorem leftOf_succ {x : PersonId} {k : UInt32} (h : k ≠ 0) (n : Nat) :
    leftOf x k (n + 1) = leftOf x (k - 1) n := by
  have hpos : 0 < k.toNat := UInt32.lt_iff_toNat_lt.1 (UInt32.pos_iff_ne_zero.2 h)
  have hless : (k - 1).toNat = k.toNat - 1 :=
    UInt32.toNat_sub_of_le _ _ (UInt32.le_iff_toNat_le.2 hpos)
  have hyears : k.toNat - (n + 1) = k.toNat - 1 - n := by omega
  unfold leftOf
  rw [hless, hyears]
  by_cases hle : n + 1 ≤ k.toNat
  · rw [if_pos hle, if_pos (by omega)]
  · rw [if_neg hle, if_neg (by omega)]

variable [Dice σ]

/-- The market after moves. -/
def after (m : Market) (moves : List (Move σ)) : Market := moves.foldl Move.apply m

/-- A market with one more entry goes through moves like the market without it, apart from that
entry, which stays in its place as long as its years last. -/
theorem exists_after_spared {x : PersonId} {moves : List (Move σ)}
    (h : ∀ move ∈ moves, move.Spares x) (k : UInt32) (m m' : Market)
    (before behind : List Candidate) (hm : m.candidates = before ++ behind)
    (hm' : m'.candidates = before ++ ⟨x, k⟩ :: behind) :
    ∃ earlier later, (m.after moves).candidates = earlier ++ later ∧
      (m'.after moves).candidates =
        earlier ++ leftOf x k (moves.countP Move.isYear) ++ later := by
  -- The induction is on the moves, with any number of years left and any entries around.
  induction moves generalizing k m m' before behind with
  | nil =>
    refine ⟨before, behind, hm, ?_⟩
    rw [List.countP_nil, leftOf_zero, List.append_assoc]
    exact hm'
  | cons move rest ih =>
    obtain ⟨hspared, hrest⟩ := List.forall_mem_cons.1 h
    have hwithout := move.candidates_apply m
    have hwith := move.candidates_apply m'
    rw [hm, List.filterMap_append, List.append_assoc] at hwithout
    rw [hm', List.filterMap_append, List.filterMap_cons, Move.keep_of_spares hspared] at hwith
    rw [List.countP_cons]
    unfold after
    rw [List.foldl_cons, List.foldl_cons]
    by_cases hyear : move.isYear = true
    · rw [if_pos hyear] at hwith ⊢
      by_cases hzero : k = 0
      · -- The entry goes in this year, and both markets are the same from here on.
        subst hzero
        have hsame : move.apply m' = move.apply m := by
          have hlists := hwith.trans (List.append_assoc ..)
          exact congrArg Market.mk (hlists.trans hwithout.symm)
        refine ⟨(after (move.apply m) rest).candidates, [], (List.append_nil _).symm, ?_⟩
        rw [hsame, leftOf_zero_succ, List.append_nil, List.append_nil]
        rfl
      · rw [if_neg hzero, List.append_assoc] at hwith
        rw [leftOf_succ hzero]
        exact ih hrest (k - 1) _ _ _ _ hwithout hwith
    · rw [if_neg hyear, List.append_assoc] at hwith
      rw [if_neg hyear, Nat.add_zero]
      exact ih hrest k _ _ _ _ hwithout hwith

/-- A year on the market lets just those go who have no years left or are dead, unknown or married,
keeps the others in order with a year less, and brings at most one newcomer, while nobody in the
roster is changed. So somebody who comes with `k` years, and lives single and unasked for, is on the
market in the same place after each of the next `k` years, with as many years left as are missing
to `k`; after one more year the market is as if that entry had never been there. -/
theorem candidates_lifetime (m : Market) :
    (∀ (settings : FamilySettings) (year : Year) (r : Roster) (dice : σ),
      (∃ joined : Option Person,
        (∀ p ∈ joined, Newcomer settings.marriage year r p) ∧
        (joined = none ↔
          (Dice.roll dice).1.reaches settings.marriage.newCandidateChance = true) ∧
        (m.update settings year r dice).1.candidates =
          (m.candidates.filter fun c => ¬ Leaves r c).map Candidate.older ++
            (joined.map fun p => ⟨p.id, settings.marriage.candidateYears⟩).toList ∧
        (m.update settings year r dice).2.1.toList = r.toList ++ joined.toList ∧
        (r.size < 2 ^ 32 → r.get? r.nextId = none ∧
          (m.update settings year r dice).2.1.get? r.nextId = joined)) ∧
      (∀ c, ¬ Leaves r c → c.older.remaining.toNat + 1 = c.remaining.toNat) ∧
      ∀ id p, r.get? id = some p → (m.update settings year r dice).2.1.get? id = some p) ∧
    ∀ (x : PersonId) (k : UInt32) (moves : List (Move σ)), (∀ move ∈ moves, move.Spares x) →
      (∃ earlier later, (m.after moves).candidates = earlier ++ later ∧
        ((m.add x k).after moves).candidates = earlier ++
          (if moves.countP Move.isYear ≤ k.toNat
            then [⟨x, UInt32.ofNat (k.toNat - moves.countP Move.isYear)⟩] else []) ++ later) ∧
      (x ∉ (m.after moves).persons →
        (x ∈ ((m.add x k).after moves).persons ↔ moves.countP Move.isYear ≤ k.toNat)) := by
  constructor
  · intro settings year r dice
    obtain ⟨joined, hjoined, hroll, hcandidates, hroster, hfound⟩ :=
      m.exists_joined settings year r dice
    rw [candidates_expire] at hcandidates
    refine ⟨⟨joined, hjoined, hroll, hcandidates, hroster, fun hsize => ?_⟩,
      fun c hc => remaining_older hc, fun id p hget => m.get?_update_of_some _ _ _ _ hget⟩
    exact ⟨Roster.get?_nextId hsize, hfound hsize⟩
  · intro x k moves hspared
    obtain ⟨earlier, later, hwithout, hwith⟩ := exists_after_spared hspared k m (m.add x k)
      m.candidates [] (List.append_nil _).symm rfl
    refine ⟨⟨earlier, later, hwithout, hwith⟩, fun hother => ?_⟩
    unfold persons at hother ⊢
    rw [hwithout, List.map_append, List.mem_append, not_or] at hother
    rw [hwith, leftOf]
    split
    case isTrue hle => simp [hle]
    case isFalse hgone =>
      simp only [List.append_nil, List.map_append, List.mem_append, hgone, iff_false, not_or]
      exact hother

/-- Settings under which nobody new comes. -/
def hermitage : FamilySettings := { marriage := { newCandidateChance := 0.0 } }

/-- A single woman, and a couple. -/
def guests : Roster :=
  let arrival (name : String) (gender : Gender) (birthYear : Year) : Roster.Arrival :=
    { name, gender, birthYear, faction := "", region := "", health := 100 }
  let single := (Roster.empty.spawn (arrival "Lyra" .female 980)).2
  let couple := ((single.spawn (arrival "Aric" .male 970)).2.spawn (arrival "Kyra" .female 971)).2
  couple.marry ⟨1⟩ ⟨2⟩

/-- Two years; between them a man who is married is put on the market and taken off it, and somebody
unknown is put on it. -/
def seasons : List (Move Generator) :=
  [.update hermitage 1000 guests (.stepping 0 0), .add ⟨1⟩ 5, .remove ⟨1⟩, .add ⟨7⟩ 5,
    .update hermitage 1001 guests (.stepping 0 0)]

/-- With one year left a woman is there after the first year, with none left, and goes in the
second; somebody unknown goes at once. -/
theorem candidates_lifetime_guests :
    (∀ move ∈ seasons, move.Spares ⟨0⟩) ∧
    ((empty.add ⟨0⟩ 1).after (seasons.take 4)).candidates = [⟨⟨0⟩, 0⟩, ⟨⟨7⟩, 5⟩] ∧
    ⟨0⟩ ∈ ((empty.add ⟨0⟩ 1).after (seasons.take 4)).persons ∧
    ⟨0⟩ ∉ ((empty.add ⟨0⟩ 1).after seasons).persons := by
  have hspared : ∀ move ∈ seasons, move.Spares ⟨0⟩ := by decide
  have hearly : ∀ move ∈ seasons.take 4, move.Spares ⟨0⟩ := fun move hmove =>
    hspared move (List.mem_of_mem_take hmove)
  have hfirst := ((candidates_lifetime empty).2 ⟨0⟩ 1 (seasons.take 4) hearly).2 (by decide +kernel)
  have hsecond := ((candidates_lifetime empty).2 ⟨0⟩ 1 seasons hspared).2 (by decide +kernel)
  exact ⟨hspared, by decide +kernel, hfirst.2 (by decide), fun hthere =>
    absurd (hsecond.1 hthere) (by decide)⟩

end Market

end Annals
