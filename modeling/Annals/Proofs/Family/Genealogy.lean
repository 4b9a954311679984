import Mathlib.Data.List.Nodup
import Mathlib.Logic.Relation
import Annals.Proofs.Family.Turn
/-!
# Genealogy

Links between persons are noted on both sides, marriages are of opposite genders and follow one
another, and parents come before their children. Every move of family life keeps this as long as
ids are left.

* `Roster.Genealogy`: how partners, children and parents fit together.
* `Roster.Marriageable`: the guards of a marriage.
* `Genealogy.marry`, `Genealogy.bear`, `Genealogy.keep`: marriages, births, and all else.
* `Genealogy.turned`, `Genealogy.withCouple`: members' turns and foundings.
-/

namespace Annals

namespace Roster

variable {r r' : Roster}

/-- The links of a roster fit together. -/
structure Genealogy (r : Roster) : Prop where
  numbered : r.Numbered
  symmetric : ∀ {a b}, b ∈ r.partnersOf a → a ∈ r.partnersOf b
  opposite : ∀ {a b}, b ∈ r.partnersOf a →
    ∃ g, r.genderOf a = some g ∧ r.genderOf b = some g.opposite
  once : ∀ a, (r.partnersOf a).Nodup
  /-- A marriage ends before the next one begins. -/
  widowed : ∀ {a b}, b ∈ (r.partnersOf a).dropLast → r.isAlive b = false
  mirrored : ∀ {p c}, c ∈ r.childrenOf p ↔
    ∃ mother father, r.parentsOf c = some (mother, father) ∧ (p = mother ∨ p = father)
  bornOnce : ∀ p, (r.childrenOf p).Nodup
  wedded : ∀ {c mother father}, r.parentsOf c = some (mother, father) →
    r.genderOf mother = some .female ∧ father ∈ r.partnersOf mother
  older : ∀ {c mother father}, r.parentsOf c = some (mother, father) →
    mother.index.toNat < c.index.toNat ∧ father.index.toNat < c.index.toNat

theorem genealogy_empty : empty.Genealogy where
  numbered := numbered_empty
  symmetric := fun h => absurd h List.not_mem_nil
  opposite := fun h => absurd h List.not_mem_nil
  once := fun _ => List.nodup_nil
  widowed := fun h => absurd h List.not_mem_nil
  mirrored := ⟨fun h => absurd h List.not_mem_nil, fun ⟨_, _, h, _⟩ => nomatch h⟩
  bornOnce := fun _ => List.nodup_nil
  wedded := fun h => nomatch h
  older := fun h => nomatch h

namespace Genealogy

/-- Nobody is the own partner. -/
theorem ne_of_mem (h : r.Genealogy) {a b : PersonId} (hb : b ∈ r.partnersOf a) : a ≠ b := by
  rintro rfl
  obtain ⟨g, hg, hopposite⟩ := h.opposite hb
  rw [hg] at hopposite
  cases g <;> cases hopposite

/-- Partners are two persons of the roster. -/
theorem exists_couple (h : r.Genealogy) {a b : PersonId} (hb : b ∈ r.partnersOf a) :
    ∃ p q, r.get? a = some p ∧ r.get? b = some q ∧ a ≠ b := by
  obtain ⟨g, hga, hgb⟩ := h.opposite hb
  obtain ⟨p, hp, -⟩ := exists_of_genderOf hga
  obtain ⟨q, hq, -⟩ := exists_of_genderOf hgb
  exact ⟨p, q, hp, hq, h.ne_of_mem hb⟩

/-- Fathers are male. -/
theorem father_male (h : r.Genealogy) {c mother father : PersonId}
    (hc : r.parentsOf c = some (mother, father)) : r.genderOf father = some .male := by
  obtain ⟨hfemale, hpartner⟩ := h.wedded hc
  obtain ⟨g, hg, hopposite⟩ := h.opposite hpartner
  rw [hfemale] at hg
  cases hg
  exact hopposite

/-- Only the last of the partners can live. -/
theorem eq_of_isAlive (h : r.Genealogy) {a b c : PersonId} (hb : b ∈ r.partnersOf a)
    (hc : c ∈ r.partnersOf a) (hbalive : r.isAlive b = true) (hcalive : r.isAlive c = true) :
    b = c := by
  have hlast : ∀ x ∈ r.partnersOf a, r.isAlive x = true → (r.partnersOf a).getLast? = some x := by
    intro x hx halive
    rcases List.eq_nil_or_concat (r.partnersOf a) with hnil | ⟨init, y, hsplit⟩
    · rw [hnil] at hx
      exact absurd hx List.not_mem_nil
    · rw [List.concat_eq_append] at hsplit
      rw [hsplit, List.mem_append, List.mem_singleton] at hx
      rcases hx with hinit | rfl
      · have hdead : r.isAlive x = false := by
          refine h.widowed (a := a) ?_
          rw [hsplit, List.dropLast_concat]
          exact hinit
        rw [hdead] at halive
        cases halive
      · rw [hsplit, List.getLast?_concat]
  have hboth := (hlast b hb hbalive).symm.trans (hlast c hc hcalive)
  exact Option.some.inj hboth

/-- Descendants have larger ids. -/
theorem descent_lt (h : r.Genealogy) {c p : PersonId}
    (hdescent : Relation.TransGen (fun c p => c ∈ r.childrenOf p) c p) :
    p.index.toNat < c.index.toNat := by
  have hchild : ∀ {c p}, c ∈ r.childrenOf p → p.index.toNat < c.index.toNat := by
    intro c p hmem
    obtain ⟨mother, father, hparents, rfl | rfl⟩ := h.mirrored.1 hmem
    · exact (h.older hparents).1
    · exact (h.older hparents).2
  induction hdescent with
  | single hmem => exact hchild hmem
  | tail _ hmem ih => exact Nat.lt_trans (hchild hmem) ih

/-- The former partners are dead at all later times. -/
theorem dead_later (h : r.Genealogy) (hlater : r.Continues r') {a b : PersonId}
    (hb : b ∈ (r.partnersOf a).dropLast) : r'.isAlive b = false := by
  obtain ⟨g, -, hgender⟩ := h.opposite ((List.dropLast_sublist _).subset hb)
  refine Bool.eq_false_iff.2 fun halive => ?_
  have hbefore := hlater.isAlive hgender halive
  rw [h.widowed hb] at hbefore
  cases hbefore

/-- A change without new links keeps the genealogy. -/
theorem keep (h : r.Genealogy) (hlater : r.Continues r') (hlinks : r.SameLinks r')
    (hnumbered : r'.Numbered) : r'.Genealogy where
  numbered := hnumbered
  symmetric := by
    intro a b hb
    rw [hlinks.partners] at hb ⊢
    exact h.symmetric hb
  opposite := by
    intro a b hb
    rw [hlinks.partners] at hb
    obtain ⟨g, ha, hb⟩ := h.opposite hb
    exact ⟨g, hlater.genderOf ha, hlater.genderOf hb⟩
  once := by
    intro a
    rw [hlinks.partners]
    exact h.once a
  widowed := by
    intro a b hb
    rw [hlinks.partners] at hb
    exact h.dead_later hlater hb
  mirrored := by
    intro p c
    rw [hlinks.children, hlinks.parents]
    exact h.mirrored
  bornOnce := by
    intro p
    rw [hlinks.children]
    exact h.bornOnce p
  wedded := by
    intro c mother father hc
    rw [hlinks.parents] at hc
    obtain ⟨hfemale, hpartner⟩ := h.wedded hc
    rw [hlinks.partners]
    exact ⟨hlater.genderOf hfemale, hpartner⟩
  older := by
    intro c mother father hc
    rw [hlinks.parents] at hc
    exact h.older hc

theorem spawn (h : r.Genealogy) (a : Arrival) : (r.spawn a).2.Genealogy :=
  h.keep (.spawn r a) (.spawn r a) (h.numbered.spawn a)

theorem weaken (h : r.Genealogy) (id : PersonId) (loss : Int32) : (r.weaken id loss).Genealogy :=
  h.keep (.weaken r id loss) (.weaken r id loss) (h.numbered.weaken id loss)

theorem crown (h : r.Genealogy) (id : PersonId) : (r.crown id).Genealogy :=
  h.keep (.crown r id) (.crown r id) (h.numbered.crown id)

theorem kill (h : r.Genealogy) (id : PersonId) (year : Year) : (r.kill id year).Genealogy :=
  h.keep (.kill r id year) (.kill r id year) (h.numbered.kill id year)

end Genealogy

/-! ## Marriages -/

/-- A seeker without a living partner, and somebody of the other gender who has never married. -/
structure Marriageable (r : Roster) (a b : PersonId) : Prop where
  opposite : ∃ g, r.genderOf a = some g ∧ r.genderOf b = some g.opposite
  widowed : ∀ c ∈ r.partnersOf a, r.isAlive c = false
  single : r.partnersOf b = []

section Marriage

variable {a b : PersonId}

theorem ne_of_opposite {g : Gender} (ha : r.genderOf a = some g)
    (hb : r.genderOf b = some g.opposite) : a ≠ b := by
  rintro rfl
  rw [ha] at hb
  cases g <;> cases hb

/-- A marriage comes last among the partners of the seeker and is the only one of the other. -/
theorem Genealogy.partnersOf_marry (h : r.Genealogy) (hm : r.Marriageable a b) (x : PersonId) :
    (r.marry a b).partnersOf x =
      if x = a then r.partnersOf a ++ [b] else if x = b then [a] else r.partnersOf x := by
  obtain ⟨g, hga, hgb⟩ := hm.opposite
  obtain ⟨p, hp, -⟩ := exists_of_genderOf hga
  obtain ⟨q, hq, -⟩ := exists_of_genderOf hgb
  have hba : a ∉ r.partnersOf b := by
    rw [hm.single]
    exact List.not_mem_nil
  have hab : b ∉ r.partnersOf a := fun hmem => hba (h.symmetric hmem)
  rw [Roster.partnersOf_marry hp hq (ne_of_opposite hga hgb) hab hba, hm.single]
  rfl

theorem Genealogy.mem_partnersOf_marry (h : r.Genealogy) (hm : r.Marriageable a b)
    {x y : PersonId} : y ∈ (r.marry a b).partnersOf x ↔
      y ∈ r.partnersOf x ∨ (x = a ∧ y = b) ∨ (x = b ∧ y = a) := by
  obtain ⟨g, hga, hgb⟩ := hm.opposite
  have hne := ne_of_opposite hga hgb
  rw [h.partnersOf_marry hm]
  by_cases hxa : x = a
  · subst hxa
    simp [hne]
  · by_cases hxb : x = b
    · subst hxb
      simp [hxa, hm.single]
    · simp [hxa, hxb]

/-- Marriages keep the genealogy. -/
theorem Genealogy.marry (h : r.Genealogy) (hm : r.Marriageable a b) : (r.marry a b).Genealogy := by
  obtain ⟨g, hga, hgb⟩ := hm.opposite
  have hlater := Continues.marry r a b
  -- Children and parents are as before; the fields on partners are where the guards count.
  refine
    { numbered := h.numbered.marry a b, symmetric := ?symmetric, opposite := ?opposite
      once := ?once, widowed := ?widowed, mirrored := ?mirrored, bornOnce := ?bornOnce
      wedded := ?wedded, older := ?older }
  case symmetric =>
    intro x y hy
    rw [h.mem_partnersOf_marry hm] at hy ⊢
    rcases hy with hold | ⟨hxa, hyb⟩ | ⟨hxb, hya⟩
    · exact .inl (h.symmetric hold)
    · exact .inr (.inr ⟨hyb, hxa⟩)
    · exact .inr (.inl ⟨hya, hxb⟩)
  case opposite =>
    intro x y hy
    rw [h.mem_partnersOf_marry hm] at hy
    rcases hy with hold | ⟨rfl, rfl⟩ | ⟨rfl, rfl⟩
    · obtain ⟨g', hx, hy⟩ := h.opposite hold
      exact ⟨g', hlater.genderOf hx, hlater.genderOf hy⟩
    · exact ⟨g, hlater.genderOf hga, hlater.genderOf hgb⟩
    · refine ⟨g.opposite, hlater.genderOf hgb, ?_⟩
      cases g <;> exact hlater.genderOf hga
  case once =>
    intro x
    rw [h.partnersOf_marry hm]
    split
    · -- Whoever has never married is not among the seeker's partners.
      have hnew : b ∉ r.partnersOf a := by
        intro hmem
        have hback := h.symmetric hmem
        rw [hm.single] at hback
        exact List.not_mem_nil hback
      refine (h.once a).append (List.nodup_singleton b) ?_
      rw [List.disjoint_singleton]
      exact hnew
    · split
      · exact List.nodup_singleton a
      · exact h.once x
  case widowed =>
    intro x y hy
    rw [isAlive_marry]
    rw [h.partnersOf_marry hm] at hy
    split at hy
    · -- The seeker's former partners are all dead.
      rw [List.dropLast_concat] at hy
      exact hm.widowed y hy
    · split at hy
      · exact absurd hy List.not_mem_nil
      · exact h.widowed hy
  case mirrored =>
    intro p c
    rw [childrenOf_marry, parentsOf_marry]
    exact h.mirrored
  case bornOnce =>
    intro p
    rw [childrenOf_marry]
    exact h.bornOnce p
  case wedded =>
    intro c mother father hc
    rw [parentsOf_marry] at hc
    obtain ⟨hfemale, hpartner⟩ := h.wedded hc
    exact ⟨hlater.genderOf hfemale, (h.mem_partnersOf_marry hm).2 (.inl hpartner)⟩
  case older =>
    intro c mother father hc
    rw [parentsOf_marry] at hc
    exact h.older hc

end Marriage

/-! ## Births -/

/-- Births keep the genealogy. -/
theorem Genealogy.bear (h : r.Genealogy) (hsize : r.size < 2 ^ 32) (a : Arrival)
    {mother father : PersonId} (hmother : r.genderOf mother = some .female)
    (hfather : father ∈ r.partnersOf mother) : (r.bear a mother father).Genealogy := by
  obtain ⟨m, f, hm, hf, hne⟩ := h.exists_couple hfather
  have hlater := Continues.bear r a mother father
  have hparents := parentsOf_bear (a := a) hsize hm hf hne
  -- The id of the newborn is new, so it has no parents yet and is nobody's child.
  have hfresh : r.parentsOf r.nextId = none := by
    unfold parentsOf
    rw [get?_nextId hsize]
    rfl
  have hnew : ∀ p, r.nextId ∉ r.childrenOf p := by
    intro p hmem
    obtain ⟨x, y, hxy, -⟩ := h.mirrored.1 hmem
    rw [hfresh] at hxy
    cases hxy
  refine
    { numbered := (h.numbered.spawn a).addChild mother father r.nextId, symmetric := ?symmetric
      opposite := ?opposite, once := ?once, widowed := ?widowed, mirrored := ?mirrored
      bornOnce := ?bornOnce, wedded := ?wedded, older := ?older }
  case symmetric =>
    intro x y hy
    rw [partnersOf_bear] at hy ⊢
    exact h.symmetric hy
  case opposite =>
    intro x y hy
    rw [partnersOf_bear] at hy
    obtain ⟨g', hx, hy⟩ := h.opposite hy
    exact ⟨g', hlater.genderOf hx, hlater.genderOf hy⟩
  case once =>
    intro x
    rw [partnersOf_bear]
    exact h.once x
  case widowed =>
    intro x y hy
    rw [partnersOf_bear] at hy
    exact h.dead_later hlater hy
  case mirrored =>
    intro p c
    rw [childrenOf_bear hsize hm hf hne, hparents]
    by_cases hc : c = r.nextId
    · -- The newborn is a child of its parents and of nobody else.
      subst hc
      rw [if_pos rfl]
      constructor
      · intro hmem
        split at hmem
        case isTrue hp => exact ⟨mother, father, rfl, hp⟩
        case isFalse => exact absurd hmem (hnew p)
      · rintro ⟨x, y, hxy, hp⟩
        cases hxy
        rw [if_pos hp]
        exact List.mem_append_right _ (List.mem_singleton.2 rfl)
    · rw [if_neg hc, ← h.mirrored]
      split
      · simp [hc]
      · rfl
  case bornOnce =>
    intro p
    rw [childrenOf_bear hsize hm hf hne]
    split
    · refine (h.bornOnce p).append (List.nodup_singleton _) ?_
      rw [List.disjoint_singleton]
      exact hnew p
    · exact h.bornOnce p
  case wedded =>
    intro c x y hc
    rw [hparents] at hc
    rw [partnersOf_bear]
    split at hc
    · cases hc
      exact ⟨hlater.genderOf hmother, hfather⟩
    · obtain ⟨hfemale, hpartner⟩ := h.wedded hc
      exact ⟨hlater.genderOf hfemale, hpartner⟩
  case older =>
    intro c x y hc
    rw [hparents] at hc
    split at hc
    case isTrue hnext =>
      -- The newborn takes the last place, behind both parents.
      cases hc
      rw [hnext, toNat_nextId hsize]
      exact ⟨index_lt_size hm, index_lt_size hf⟩
    case isFalse => exact h.older hc

/-! ## The moves of family life -/

theorem genderOf_opposite {a b : PersonId} {p q : Person} (ha : r.get? a = some p)
    (hb : r.get? b = some q) (hne : q.gender ≠ p.gender) :
    ∃ g, r.genderOf a = some g ∧ r.genderOf b = some g.opposite := by
  refine ⟨p.gender, genderOf_of_get? ha, ?_⟩
  rw [genderOf_of_get? hb]
  cases hp : p.gender <;> cases hq : q.gender <;> simp_all [Gender.opposite]

/-- Whoever suits a seeker without a living partner can be married. -/
theorem Genealogy.marriageable (h : r.Genealogy) {a b : PersonId} {p : Person}
    {s : MarriageSettings} {year : Year} {m : Market} (ha : r.get? a = some p)
    (hsingle : r.livingPartner? a = none) (hb : b ∈ m.suitable s p year r) :
    r.Marriageable a b := by
  obtain ⟨-, q, hq, hsuits⟩ := (Market.mem_suitable h.numbered).1 hb
  simp only [Market.suits, Bool.and_eq_true, decide_eq_true_eq] at hsuits
  obtain ⟨⟨⟨⟨-, -⟩, hgender⟩, hnever⟩, -⟩ := hsuits
  refine ⟨genderOf_opposite ha hq hgender, fun c hc => widowed_of_livingPartner? hsingle hc, ?_⟩
  rw [partnersOf_of_get? hq]
  exact List.isEmpty_iff.1 hnever

/-- A member's turn keeps the genealogy, as long as it does not use up the ids. -/
theorem Genealogy.turned {σ : Type} [Dice σ] {s : FamilySettings} {year : Year} {id : PersonId}
    {h h' : House σ} {events : List FamilyEvent} (hturned : House.Turned s year id h events h')
    (hr : h.roster.Genealogy) (hsize : h'.roster.size ≤ 2 ^ 32) : h'.roster.Genealogy := by
  cases hturned with
  | gone hdead => exact hr
  | @aged p loss dice _ _ hget halive hfared =>
    have haged : (h.roster.weaken id loss).Genealogy := hr.weaken id loss
    cases hfared with
    | quiet dice => exact haged
    | died hother => exact haged.kill id year
    | succeeded isKing hmonarch hheir => exact (haged.kill id year).crown _
    | ended isKing hmonarch hheir => exact haged.kill id year
    | married dice hgrown hsingle hpartner =>
      exact haged.marry (haged.marriageable hget hsingle hpartner)
    | bore drawn dice hfertile hfather arrival harrival =>
      have hfemale : (h.roster.weaken id loss).genderOf id = some .female := by
        simp only [House.isFertile, Bool.and_eq_true, decide_eq_true_eq] at hfertile
        exact (genderOf_of_get? hget).trans (congrArg some hfertile.1.1)
      change ((h.roster.weaken id loss).bear arrival id _).size ≤ 2 ^ 32 at hsize
      rw [size_bear] at hsize
      exact haged.bear hsize arrival hfemale (livingPartner?_mem hfather).1

/-- As long as ids are left, two newcomers of opposite genders can be married. -/
theorem marriageable_newcomers {king queen : Arrival} (hking : king.gender = .male)
    (hqueen : queen.gender = .female) (hfirst : r.size < 2 ^ 32)
    (hsecond : (r.spawn king).2.size < 2 ^ 32) :
    ((r.spawn king).2.spawn queen).2.Marriageable r.nextId (r.spawn king).2.nextId := by
  have hk := get?_spawn_of_some (get?_spawn_nextId hfirst king) queen
  have hq := get?_spawn_nextId hsecond queen
  refine ⟨⟨.male, ?_, ?_⟩, ?_, ?_⟩
  · exact (genderOf_of_get? hk).trans (congrArg some hking)
  · exact (genderOf_of_get? hq).trans (congrArg some hqueen)
  · rw [partnersOf_of_get? hk]
    exact List.forall_mem_nil _
  · exact partnersOf_of_get? hq

/-- Ids that are left for a couple. -/
theorem room_of_withCouple {king queen : Arrival}
    (hsize : (r.withCouple king queen).size ≤ 2 ^ 32) :
    r.size < 2 ^ 32 ∧ (r.spawn king).2.size < 2 ^ 32 := by
  unfold Roster.withCouple at hsize
  rw [size_crown, size_marry, size_spawn, size_spawn] at hsize
  rw [size_spawn]
  omega

/-- A founding couple keeps the genealogy. -/
theorem Genealogy.withCouple (h : r.Genealogy) {king queen : Arrival} (hking : king.gender = .male)
    (hqueen : queen.gender = .female) (hsize : (r.withCouple king queen).size ≤ 2 ^ 32) :
    (r.withCouple king queen).Genealogy := by
  obtain ⟨hfirst, hsecond⟩ := room_of_withCouple hsize
  have hspawned := (h.spawn king).spawn queen
  exact (hspawned.marry (marriageable_newcomers hking hqueen hfirst hsecond)).crown _

end Roster

end Annals
