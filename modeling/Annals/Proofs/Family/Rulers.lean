import Annals.Dice.Generator
import Annals.Proofs.Family.Descent
import Annals.Proofs.Family.Pedigree
/-!
# Monarchs in the family tree

The crown passes to children and to siblings, and siblings may have a single parent in common. The
tree goes on from the founder to children only. So a monarch has a line in the tree as long as one
of the parents has one, and a monarch who is related to the house through the other parent has none.

* `Ruling`: dynasties with all who have reigned in them, as foundings and years lead to them.
* `Ruling.pedigreed`: the founder comes first, and each monarch is kin to the one before.
* `Ruling.crowned_iff`: which monarchs have a line with a crown.
* `nerdival`: a house whose fifth monarch has none.
-/

namespace Annals

/-! ## Foundings and years -/

/-- A dynasty with all who have reigned in it, in order. -/
structure Line where
  dynasty : Dynasty
  monarchs : List PersonId

/-- Dynasties, the roster and the market that they share, as foundings, years on the market and
years of dynasties lead to them, with any settings and any dice. -/
inductive Ruling : List Line → Roster → Market → Prop
  | empty : Ruling [] .empty .empty
  | found {lines : List Line} {r : Roster} {m : Market} {σ : Type} [Dice σ] (name : String)
      (year : Year) (health : Int32) (dice : σ) (h : Ruling lines r m) :
      Ruling (lines ++ [{ dynasty := (Dynasty.found name year health r dice).1
                          monarchs := [(Dynasty.found name year health r dice).1.founder] }])
        (Dynasty.found name year health r dice).2.1 m
  | market {lines : List Line} {r : Roster} {m : Market} {σ : Type} [Dice σ] (s : FamilySettings)
      (year : Year) (dice : σ) (h : Ruling lines r m) :
      Ruling lines (m.update s year r dice).2.1 (m.update s year r dice).1
  | year {before behind : List Line} {monarchs : List PersonId} {σ : Type} [Dice σ]
      {house : House σ} (s : FamilySettings) (year : Year)
      (h : Ruling (before ++ { dynasty := house.dynasty, monarchs } :: behind) house.roster
        house.market) :
      Ruling (before ++ { dynasty := (house.passYear s year).2.dynasty
                          monarchs := monarchs ++ house.heirs s year } :: behind)
        (house.passYear s year).2.roster (house.passYear s year).2.market

/-! ## Lines -/

namespace Line

variable {l : Line} {r r' : Roster}

/-- The founder comes first and the present monarch last, all have reigned, and each is kin to the
one before. -/
structure Lawful (l : Line) (r : Roster) : Prop where
  first : l.monarchs.head? = some l.dynasty.founder
  last : ∀ x, l.dynasty.monarch = some x → l.monarchs.getLast? = some x
  reigned : ∀ x ∈ l.monarchs, r.hasReigned x = true
  chain : List.IsChain r.Kin l.monarchs

theorem Lawful.later (h : l.Lawful r) (hbegets : r.Begets r')
    (hreigned : ∀ x, r.hasReigned x = true → r'.hasReigned x = true) : l.Lawful r' where
  first := h.first
  last := h.last
  reigned := fun x hx => hreigned x (h.reigned x hx)
  chain := h.chain.imp fun _ _ => hbegets.kin

theorem Lawful.monarch_mem (h : l.Lawful r) {x : PersonId} (hx : l.dynasty.monarch = some x) :
    x ∈ l.monarchs := List.mem_of_getLast? (h.last x hx)

end Line

/-- The lines are lawful, and nobody else has reigned. -/
structure Pedigreed (lines : List Line) (r : Roster) : Prop where
  numbered : r.Numbered
  registered : r.Registered
  lawful : ∀ l ∈ lines, l.Lawful r
  complete : ∀ x, r.hasReigned x = true → ∃ l ∈ lines, x ∈ l.monarchs

namespace Pedigreed

variable {lines before behind : List Line} {r r' : Roster} {monarchs : List PersonId}

/-- What crowns nobody keeps this. -/
theorem later (h : Pedigreed lines r) (hnumbered : r'.Numbered) (hbegets : r.Begets r')
    (hreigned : ∀ x, r'.hasReigned x = r.hasReigned x) : Pedigreed lines r' where
  numbered := hnumbered
  registered := hbegets.registered h.registered
  lawful := fun l hl => (h.lawful l hl).later hbegets fun x hx => (hreigned x).trans hx
  complete := fun x hx => h.complete x ((hreigned x).symm.trans hx)

theorem found (h : Pedigreed lines r) (name : String) (king queen : Roster.Arrival) :
    Pedigreed
      (lines ++ [{ dynasty := .ofCouple name r.nextId (r.spawn king).2.nextId
                   monarchs := [r.nextId] }])
      (r.withCouple king queen) := by
  have hbegets := Roster.Begets.withCouple r king queen
  have hreigned := Roster.hasReigned_withCouple r king queen
  constructor
  case numbered => exact h.numbered.withCouple king queen
  case registered => exact hbegets.registered h.registered
  case lawful =>
    refine List.forall_mem_append.2 ⟨fun l hl => ?_, List.forall_mem_singleton.2 ?_⟩
    · exact (h.lawful l hl).later hbegets fun x hx => (hreigned x).2 (.inl hx)
    · constructor
      case first => rfl
      case last =>
        intro x hx
        cases hx
        rfl
      case reigned => exact List.forall_mem_singleton.2 ((hreigned _).2 (.inr rfl))
      case chain => exact List.isChain_singleton _
  case complete =>
    intro x hx
    rcases (hreigned x).1 hx with hold | rfl
    · obtain ⟨l, hl, hmem⟩ := h.complete x hold
      exact ⟨l, List.mem_append_left _ hl, hmem⟩
    · exact ⟨_, List.mem_append_right _ List.mem_cons_self, List.mem_cons_self⟩

/-- The heirs of a year go on with the line of the dynasty. -/
theorem passYear {σ : Type} [Dice σ] {house : House σ}
    (h : Pedigreed (before ++ { dynasty := house.dynasty, monarchs } :: behind) house.roster)
    (s : FamilySettings) (year : Year) :
    Pedigreed (before ++ { dynasty := (house.passYear s year).2.dynasty
                           monarchs := monarchs ++ house.heirs s year } :: behind)
      (house.passYear s year).2.roster := by
  have hmem : { dynasty := house.dynasty, monarchs : Line } ∈
      before ++ { dynasty := house.dynasty, monarchs } :: behind :=
    List.mem_append_right before List.mem_cons_self
  have hline := h.lawful _ hmem
  have hruled : Ruled [house.dynasty] house.roster := by
    refine ⟨h.numbered, List.forall_mem_singleton.2 fun x hx => ?_⟩
    exact hline.reigned x (hline.monarch_mem hx)
  have hpassed := House.passed_passYear s year hruled
  have hfollowed := House.followed_passMembers s year house.dynasty.family h.numbered h.registered
  change House.Followed house (house.heirs s year) (house.passYear s year).2 at hfollowed
  have hkept : ∀ x, house.roster.hasReigned x = true →
      (house.passYear s year).2.roster.hasReigned x = true := fun x hx =>
    (hpassed.reigned x).2 (.inl hx)
  obtain ⟨hbefore, hrest⟩ := List.forall_mem_append.1 h.lawful
  constructor
  case numbered => exact hfollowed.numbered
  case registered => exact hfollowed.begets.registered h.registered
  case lawful =>
    refine List.forall_mem_append.2 ⟨fun l hl => (hbefore l hl).later hfollowed.begets hkept,
      List.forall_mem_cons.2 ⟨?_, fun l hl =>
        ((List.forall_mem_cons.1 hrest).2 l hl).later hfollowed.begets hkept⟩⟩
    constructor
    case first =>
      show (monarchs ++ _).head? = some (house.passYear s year).2.dynasty.founder
      rw [List.head?_append, hline.first, hpassed.founder]
      rfl
    case last =>
      intro x hx
      have hsome : house.dynasty.monarch ≠ none := by
        intro hnone
        change (house.passYear s year).2.dynasty.monarch = some x at hx
        rw [(hfollowed.ended hnone).2] at hx
        cases hx
      exact (House.getLast?_append_heirs hline.last hsome).trans (hfollowed.last x hx)
    case reigned =>
      refine List.forall_mem_append.2 ⟨fun x hx => hkept x (hline.reigned x hx), fun x hx => ?_⟩
      exact (hpassed.reigned x).2 (.inr hx)
    case chain =>
      exact House.isChain_append_heirs hline.last (fun hnone => (hfollowed.ended hnone).1)
        (hline.chain.imp fun _ _ => hfollowed.begets.kin) hfollowed.chain
  case complete =>
    intro x hx
    rcases (hpassed.reigned x).1 hx with hold | hheir
    · obtain ⟨l, hl, hlisted⟩ := h.complete x hold
      rcases List.mem_append.1 hl with hl | hl
      · exact ⟨l, List.mem_append_left _ hl, hlisted⟩
      · rcases List.mem_cons.1 hl with rfl | hl
        · exact ⟨_, List.mem_append_right before List.mem_cons_self, List.mem_append_left _ hlisted⟩
        · exact ⟨l, List.mem_append_right before (List.mem_cons_of_mem _ hl), hlisted⟩
    · exact ⟨_, List.mem_append_right before List.mem_cons_self, List.mem_append_right _ hheir⟩

end Pedigreed

/-- However dynasties are founded and years pass, lines stay lawful. -/
theorem Ruling.pedigreed {lines : List Line} {r : Roster} {m : Market} (h : Ruling lines r m) :
    Pedigreed lines r := by
  induction h with
  | empty =>
    exact ⟨Roster.numbered_empty, Roster.registered_empty, List.forall_mem_nil _,
      fun x hx => by cases hx⟩
  | @found lines r m σ _ name year health dice _ ih =>
    obtain ⟨king, queen, dice', -, -, hfound⟩ := Dynasty.found_eq name year health r dice
    rw [hfound]
    exact ih.found name king queen
  | @market lines r m σ _ s year dice _ ih =>
    rcases m.update_cases s year r dice with ⟨dice', hupdate⟩ | ⟨arrival, dice', hupdate⟩
    · rw [hupdate]
      exact ih
    · rw [hupdate]
      exact ih.later (ih.numbered.spawn arrival) (.of_sameLinks (.spawn r arrival))
        (Roster.hasReigned_spawn r arrival)
  | year s year _ ih => exact ih.passYear s year

/-- Those who have reigned are the monarchs of the lines, each one kin to the one before. Of the
monarchs of a dynasty those who are the founder or descendants have a line in its tree, of their own
and with a crown, and so has every monarch with a parent in the tree; the others have no line. -/
theorem Ruling.crowned_iff {lines : List Line} {r : Roster} {m : Market} (h : Ruling lines r m) :
    (∀ x, r.hasReigned x = true ↔ ∃ l ∈ lines, x ∈ l.monarchs) ∧
    ∀ l ∈ lines,
      l.monarchs.head? = some l.dynasty.founder ∧
      (∀ x, l.dynasty.monarch = some x → l.monarchs.getLast? = some x) ∧
      List.IsChain r.Kin l.monarchs ∧
      l.dynasty.CrownedLine r l.dynasty.founder ∧
      ∀ x ∈ l.monarchs,
        (l.dynasty.CrownedLine r x ↔ r.Descends l.dynasty.founder x) ∧
        (¬ r.Descends l.dynasty.founder x → ¬ l.dynasty.HasLine r x) ∧
        ∀ q, x ∈ r.childrenOf q → l.dynasty.HasLine r q → l.dynasty.CrownedLine r x := by
  have hp := h.pedigreed
  constructor
  · intro x
    constructor
    · exact hp.complete x
    · rintro ⟨l, hl, hx⟩
      exact (hp.lawful l hl).reigned x hx
  · intro l hl
    have hlawful := hp.lawful l hl
    -- A monarch is known, so the line depends on descent only.
    have hline : ∀ x ∈ l.monarchs, l.dynasty.HasLine r x ↔ r.Descends l.dynasty.founder x := by
      intro x hx
      have hknown : r.Knows x := Roster.exists_of_hasReigned (hlawful.reigned x hx)
      rw [Dynasty.hasLine_iff hp.numbered]
      exact ⟨fun hboth => hboth.2, fun hdescends => ⟨hknown, hdescends⟩⟩
    have hcrowned : ∀ x ∈ l.monarchs,
        l.dynasty.CrownedLine r x ↔ r.Descends l.dynasty.founder x := fun x hx =>
      (Dynasty.crownedLine_iff hp.numbered (hlawful.reigned x hx)).trans (hline x hx)
    refine ⟨hlawful.first, hlawful.last, hlawful.chain, ?_, fun x hx => ⟨hcrowned x hx, ?_, ?_⟩⟩
    · exact (hcrowned _ (List.mem_of_head? hlawful.first)).2 .refl
    · exact fun hforeign hlisted => hforeign ((hline x hx).1 hlisted)
    · intro q hchild hparent
      have hdescends := ((Dynasty.hasLine_iff hp.numbered).1 hparent).2
      exact (hcrowned x hx).2 (hdescends.tail hchild)

/-! ## Years in a row -/

namespace House

variable {σ : Type} [Dice σ]

/-- A house right after the founding of its dynasty, with nobody else around. -/
def founded (name : String) (year : Year) (health : Int32) (dice : σ) : House σ where
  dynasty := (Dynasty.found name year health .empty dice).1
  roster := (Dynasty.found name year health .empty dice).2.1
  market := .empty
  dice := (Dynasty.found name year health .empty dice).2.2

/-- A house after a year on the market. -/
def passMarket (s : FamilySettings) (year : Year) (h : House σ) : House σ :=
  let (market, roster, dice) := h.market.update s year h.roster h.dice
  { h with market, roster, dice }

/-- A house after a number of years, each of them on the market first. -/
def lived (s : FamilySettings) (start : Year) : Nat → House σ → House σ
  | 0, h => h
  | n + 1, h =>
    let year := start + Int32.ofNat n
    (((h.lived s start n).passMarket s year).passYear s year).2

/-- The house that is founded rules in any number of years. -/
theorem exists_ruling_lived (name : String) (year : Year) (health : Int32) (dice : σ)
    (s : FamilySettings) (start : Year) (n : Nat) :
    ∃ monarchs, Ruling
      [{ dynasty := ((founded name year health dice).lived s start n).dynasty, monarchs }]
      ((founded name year health dice).lived s start n).roster
      ((founded name year health dice).lived s start n).market := by
  induction n with
  | zero => exact ⟨_, .found name year health dice .empty⟩
  | succ n ih =>
    obtain ⟨monarchs, hruling⟩ := ih
    have hmarket := hruling.market s (start + Int32.ofNat n)
      ((founded name year health dice).lived s start n).dice
    exact ⟨_, @Ruling.year [] [] monarchs σ _
      (((founded name year health dice).lived s start n).passMarket s (start + Int32.ofNat n)) s
      (start + Int32.ofNat n) hmarket⟩

end House

/-- Settings with short lives. -/
def shortLives : FamilySettings where
  ageing := { maxBaseAge := 40, initialHealth := 50, healthLossMax := 4 }
  marriage := { chancePerYear := 0.02, newCandidateChance := 0.2, maxAgeDifference := 40 }
  childbirth := { chance := 0.2 }

/-- A house after forty-one years. The founding king has died in the year in which his eldest
daughter has come of age, and his widow has married again and borne a son, who has outlived the
king's children. -/
def nerdival : House Generator :=
  (House.founded "House Nerdival" 1000 50 (Generator.seeded 420)).lived shortLives 1000 41

/-- The king and his descendants have no other children, but the queen has one more. -/
theorem nerdival_eq :
    nerdival.dynasty.founder = ⟨0⟩ ∧ nerdival.dynasty.monarch = some ⟨11⟩ ∧
    nerdival.roster.hasReigned ⟨11⟩ = true ∧
    nerdival.roster.childrenOf ⟨1⟩ = [⟨2⟩, ⟨3⟩, ⟨6⟩, ⟨8⟩, ⟨9⟩, ⟨11⟩] ∧
    ∀ p ∈ [(⟨0⟩ : PersonId), ⟨2⟩, ⟨3⟩, ⟨6⟩, ⟨8⟩, ⟨9⟩, ⟨14⟩], ∀ c ∈ nerdival.roster.childrenOf p,
      c ∈ [(⟨0⟩ : PersonId), ⟨2⟩, ⟨3⟩, ⟨6⟩, ⟨8⟩, ⟨9⟩, ⟨14⟩] := by
  decide +kernel

theorem exists_ruling_nerdival : ∃ monarchs,
    Ruling [{ dynasty := nerdival.dynasty, monarchs }] nerdival.roster nerdival.market := by
  unfold nerdival
  exact House.exists_ruling_lived "House Nerdival" 1000 50 (Generator.seeded 420) shortLives 1000 41

theorem nerdival_not_descends :
    ¬ nerdival.roster.Descends nerdival.dynasty.founder ⟨11⟩ := by
  obtain ⟨hfounder, -, -, -, hclosed⟩ := nerdival_eq
  rw [hfounder]
  intro hdescends
  have hmem := hdescends.mem_of_closed hclosed List.mem_cons_self
  revert hmem
  decide

/-- The founding king has a line, and the son of his widow has none. -/
theorem Ruling.crowned_iff_nerdival : ∃ monarchs,
    Ruling [{ dynasty := nerdival.dynasty, monarchs }] nerdival.roster nerdival.market ∧
    monarchs.head? = some ⟨0⟩ ∧ monarchs.getLast? = some ⟨11⟩ ∧
    nerdival.dynasty.CrownedLine nerdival.roster ⟨0⟩ ∧
    ¬ nerdival.dynasty.HasLine nerdival.roster ⟨11⟩ := by
  obtain ⟨hfounder, hmonarch, -⟩ := nerdival_eq
  -- The rest holds of any such house, so that this one is not computed again.
  suffices hall : ∀ house : House Generator,
      (∃ monarchs, Ruling [{ dynasty := house.dynasty, monarchs }] house.roster house.market) →
      house.dynasty.founder = ⟨0⟩ → house.dynasty.monarch = some ⟨11⟩ →
      ¬ house.roster.Descends house.dynasty.founder ⟨11⟩ →
      ∃ monarchs, Ruling [{ dynasty := house.dynasty, monarchs }] house.roster house.market ∧
        monarchs.head? = some ⟨0⟩ ∧ monarchs.getLast? = some ⟨11⟩ ∧
        house.dynasty.CrownedLine house.roster ⟨0⟩ ∧ ¬ house.dynasty.HasLine house.roster ⟨11⟩ from
    hall nerdival exists_ruling_nerdival hfounder hmonarch nerdival_not_descends
  rintro house ⟨monarchs, hruling⟩ hfounder hmonarch hforeign
  obtain ⟨-, hlines⟩ := Ruling.crowned_iff hruling
  obtain ⟨hfirst, hlast, -, hcrowned, hall⟩ := hlines _ List.mem_cons_self
  have hlisted := hlast _ hmonarch
  obtain ⟨-, hnoLine, -⟩ := hall _ (List.mem_of_getLast? hlisted)
  rw [hfounder] at hfirst hcrowned
  exact ⟨monarchs, hruling, hfirst, hlisted, hcrowned, hnoLine hforeign⟩

/-- After a founding and forty-one years, with the market first in each, the reigning monarch has no
line in the family tree. -/
theorem monarch_without_line :
    nerdival = (House.founded "House Nerdival" 1000 50 (Generator.seeded 420)).lived shortLives 1000
      41 ∧
    nerdival.dynasty.monarch = some ⟨11⟩ ∧ nerdival.roster.hasReigned ⟨11⟩ = true ∧
    ¬ nerdival.dynasty.HasLine nerdival.roster ⟨11⟩ ∧
    ¬ nerdival.dynasty.CrownedLine nerdival.roster ⟨11⟩ := by
  obtain ⟨-, hmonarch, hreigned, -⟩ := nerdival_eq
  obtain ⟨monarchs, hruling⟩ := exists_ruling_nerdival
  have hnumbered := hruling.pedigreed.numbered
  have hnoLine : ¬ nerdival.dynasty.HasLine nerdival.roster ⟨11⟩ := by
    rw [Dynasty.hasLine_iff hnumbered]
    exact fun hboth => nerdival_not_descends hboth.2
  refine ⟨rfl, hmonarch, hreigned, hnoLine, ?_⟩
  rw [Dynasty.crownedLine_iff hnumbered hreigned]
  exact hnoLine

end Annals
