import Mathlib.Data.Set.Basic
import Annals.Proofs.Family.Throne
/-!
# The lawful heir

An heir is looked for in lists of ids in which somebody can be listed twice, or nobody at all. What
is found depends on the sets of grown children and grown siblings only, and on who in them is the
eldest.

* `Roster.CanReign`: who can take the throne in a year.
* `Roster.grownChildren`, `Roster.grownSiblings`: the children and the siblings who can.
* `Roster.IsEldest`: the first of a set by year of birth, and then by id.
* `Roster.Inherits`: the law of succession.
* `Roster.heir?_lawful`: the heir is the eldest grown child, or else the eldest grown sibling.
-/

namespace Annals.Roster

variable {r r' : Roster} {year : Year} {id x y : PersonId}

/-! ## Who can reign -/

/-- A living person of at least eighteen years. -/
def CanReign (r : Roster) (year : Year) (x : PersonId) : Prop :=
  ∃ p, r.get? x = some p ∧ p.isAlive = true ∧ 18 ≤ p.age year

/-- The children of an id who can reign. -/
def grownChildren (r : Roster) (year : Year) (id : PersonId) : Set PersonId :=
  { x | x ∈ r.childrenOf id ∧ r.CanReign year x }

/-- Whoever else is a child of the mother or of the father of an id and can reign. -/
def grownSiblings (r : Roster) (year : Year) (id : PersonId) : Set PersonId :=
  { x | x ≠ id ∧ r.CanReign year x ∧ ∃ mother father, r.parentsOf id = some (mother, father) ∧
    (x ∈ r.childrenOf mother ∨ x ∈ r.childrenOf father) }

/-! ## The eldest -/

/-- The year of birth of an id. -/
def birthOf (r : Roster) (x : PersonId) : Option Year := (r.get? x).map Person.birthYear

/-- Whether one id is born before another one, or in the same year with an id that is not larger. -/
def IsElder (r : Roster) (x y : PersonId) : Prop :=
  ∃ b b', r.birthOf x = some b ∧ r.birthOf y = some b' ∧
    (b.toInt < b'.toInt ∨ b = b' ∧ x.index.toNat ≤ y.index.toNat)

/-- The eldest of a set of persons. -/
structure IsEldest (r : Roster) (s : Set PersonId) (x : PersonId) : Prop where
  mem : x ∈ s
  elder : ∀ y ∈ s, r.IsElder x y

theorem birthOf_of_get? {p : Person} (h : r.get? x = some p) : r.birthOf x = some p.birthYear :=
  congrArg (Option.map Person.birthYear) h

/-- Of two persons only one is the elder. -/
theorem IsElder.antisymm (h : r.IsElder x y) (h' : r.IsElder y x) : x = y := by
  obtain ⟨b, b', hx, hy, hbefore⟩ := h
  obtain ⟨c, c', hy', hx', hafter⟩ := h'
  obtain rfl : b' = c := Option.some.inj (hy.symm.trans hy')
  obtain rfl : b = c' := Option.some.inj (hx.symm.trans hx')
  have hindex : x.index.toNat = y.index.toNat := by
    rcases hbefore with hless | ⟨heq, hle⟩
    · rcases hafter with hless' | ⟨heq, -⟩
      · omega
      · rw [heq] at hless
        omega
    · rcases hafter with hless | ⟨-, hle'⟩
      · rw [heq] at hless
        omega
      · omega
  cases x
  cases y
  exact congrArg PersonId.mk (UInt32.toNat_inj.1 hindex)

theorem IsEldest.unique {s : Set PersonId} (h : r.IsEldest s x) (h' : r.IsEldest s y) : x = y :=
  (h.elder y h'.mem).antisymm (h'.elder x h.mem)

/-- Who the eldest of a set is depends on the years of birth in the set only. -/
theorem IsEldest.congr {s : Set PersonId} (h : r.IsEldest s x)
    (hbirth : ∀ z ∈ s, r'.birthOf z = r.birthOf z) : r'.IsEldest s x := by
  refine ⟨h.mem, fun y hy => ?_⟩
  unfold IsElder
  rw [hbirth x h.mem, hbirth y hy]
  exact h.elder y hy

/-! ## The law -/

/-- The law of succession for the children and the siblings who can reign: the eldest child comes
first, the eldest sibling without a child, and nobody without either. -/
inductive Inherits (r : Roster) (children siblings : Set PersonId) :
    Option (PersonId × Kinship) → Prop
  | child {x : PersonId} (heldest : r.IsEldest children x) :
      Inherits r children siblings (some (x, .child))
  | sibling {x : PersonId} (hchildless : children = ∅) (heldest : r.IsEldest siblings x) :
      Inherits r children siblings (some (x, .sibling))
  | nobody (hchildless : children = ∅) (halone : siblings = ∅) :
      Inherits r children siblings none

theorem IsEldest.ne_empty {s : Set PersonId} (h : r.IsEldest s x) : s ≠ ∅ := by
  rintro rfl
  exact h.mem

/-- The law leaves no choice. -/
theorem Inherits.unique {children siblings : Set PersonId} {o o' : Option (PersonId × Kinship)}
    (h : r.Inherits children siblings o) (h' : r.Inherits children siblings o') : o = o' := by
  cases h with
  | child heldest =>
    cases h' with
    | child heldest' => rw [heldest.unique heldest']
    | sibling hchildless _ => exact absurd hchildless heldest.ne_empty
    | nobody hchildless _ => exact absurd hchildless heldest.ne_empty
  | sibling hchildless heldest =>
    cases h' with
    | child heldest' => exact absurd hchildless heldest'.ne_empty
    | sibling _ heldest' => rw [heldest.unique heldest']
    | nobody _ halone => exact absurd halone heldest.ne_empty
  | nobody hchildless halone =>
    cases h' with
    | child heldest' => exact absurd hchildless heldest'.ne_empty
    | sibling _ heldest' => exact absurd halone heldest'.ne_empty
    | nobody _ _ => rfl

/-- What the law says depends on the years of birth of the two sets only. -/
theorem Inherits.congr {children siblings : Set PersonId} {o : Option (PersonId × Kinship)}
    (h : r.Inherits children siblings o)
    (hbirth : ∀ z ∈ children ∪ siblings, r'.birthOf z = r.birthOf z) :
    r'.Inherits children siblings o := by
  cases h with
  | child heldest => exact .child (heldest.congr fun z hz => hbirth z (.inl hz))
  | sibling hchildless heldest =>
    exact .sibling hchildless (heldest.congr fun z hz => hbirth z (.inr hz))
  | nobody hchildless halone => exact .nobody hchildless halone

/-! ## The search -/

/-- Who does not go before somebody in the line of heirs is not the elder of the two. -/
theorem goesBefore_eq_false {p q : Person} : goesBefore q p = false ↔
    p.birthYear.toInt < q.birthYear.toInt ∨
      p.birthYear = q.birthYear ∧ p.id.index.toNat ≤ q.id.index.toNat := by
  unfold goesBefore
  rw [Bool.or_eq_false_iff, Bool.and_eq_false_iff]
  simp only [decide_eq_false_iff_not, Int32.lt_iff_toInt_lt, UInt32.lt_iff_toNat_lt,
    ← Int32.toInt_inj]
  omega

theorem goesBefore_irrefl (p : Person) : goesBefore p p = false :=
  goesBefore_eq_false.2 (.inr ⟨rfl, Nat.le_refl _⟩)

theorem goesBefore_asymm {p q : Person} (h : goesBefore q p = true) : goesBefore p q = false := by
  rw [← Bool.not_eq_false, goesBefore_eq_false] at h
  rw [goesBefore_eq_false]
  rw [← Int32.toInt_inj] at h ⊢
  omega

theorem goesBefore_eq_false_trans {p q s : Person} (h : goesBefore s q = false)
    (h' : goesBefore q p = false) : goesBefore s p = false := by
  rw [goesBefore_eq_false] at h h' ⊢
  rw [← Int32.toInt_inj] at h h' ⊢
  omega

theorem oldest?_eq_none {ps : List Person} : oldest? ps = none ↔ ps = [] := by
  cases ps with
  | nil => exact ⟨fun _ => rfl, fun _ => rfl⟩
  | cons first rest =>
    constructor
    · intro h
      unfold oldest? at h
      split at h
      · split at h <;> cases h
      · cases h
    · intro h
      cases h

/-- Nobody of a list goes before the oldest of it. -/
theorem goesBefore_oldest? {ps : List Person} {p : Person} (h : oldest? ps = some p) :
    ∀ q ∈ ps, goesBefore q p = false := by
  induction ps generalizing p with
  | nil => cases h
  | cons first rest ih =>
    unfold oldest? at h
    split at h
    case h_1 later hlater =>
      split at h
      case isTrue hbefore =>
        cases h
        exact List.forall_mem_cons.2 ⟨goesBefore_asymm hbefore, ih hlater⟩
      case isFalse hbehind =>
        cases h
        refine List.forall_mem_cons.2 ⟨goesBefore_irrefl first, fun q hq => ?_⟩
        exact goesBefore_eq_false_trans (ih hlater q hq) (Bool.not_eq_true _ ▸ hbehind)
    case h_2 hnone =>
      cases h
      rw [oldest?_eq_none.1 hnone]
      exact List.forall_mem_singleton.2 (goesBefore_irrefl first)

theorem isGrown_iff {p : Person} : isGrown year p = true ↔ p.isAlive = true ∧ 18 ≤ p.age year := by
  unfold isGrown
  rw [Bool.and_eq_true, decide_eq_true_eq]
  rfl

/-- The grown of a list of ids are its members who can reign. -/
theorem mem_grown {ids : List PersonId} {p : Person} : p ∈ r.grown year ids ↔
    ∃ x ∈ ids, r.get? x = some p ∧ p.isAlive = true ∧ 18 ≤ p.age year := by
  unfold grown
  rw [List.mem_filter, List.mem_filterMap, isGrown_iff]
  constructor
  · rintro ⟨⟨x, hx, hp⟩, hgrown⟩
    exact ⟨x, hx, hp, hgrown⟩
  · rintro ⟨x, hx, hp, hgrown⟩
    exact ⟨⟨x, hx, hp⟩, hgrown⟩

/-- The oldest of the grown of a list of ids is the eldest of those who can reign. -/
theorem isEldest_oldest? (h : r.Numbered) {ids : List PersonId} {s : Set PersonId}
    (hs : ∀ x, x ∈ s ↔ x ∈ ids ∧ r.CanReign year x) {p : Person}
    (hp : oldest? (r.grown year ids) = some p) : r.IsEldest s p.id := by
  obtain ⟨x, hx, hget, hgrown⟩ := mem_grown.1 (oldest?_mem hp)
  obtain rfl : p.id = x := h.id_eq hget
  refine ⟨(hs p.id).2 ⟨hx, p, hget, hgrown⟩, fun y hy => ?_⟩
  obtain ⟨hyids, q, hq, hqgrown⟩ := (hs y).1 hy
  obtain rfl : q.id = y := h.id_eq hq
  have hbehind := goesBefore_oldest? hp q (mem_grown.2 ⟨q.id, hyids, hq, hqgrown⟩)
  exact ⟨_, _, birthOf_of_get? hget, birthOf_of_get? hq, goesBefore_eq_false.1 hbehind⟩

/-- Nobody is found only if nobody can reign. -/
theorem oldest?_grown_eq_none {ids : List PersonId} {s : Set PersonId}
    (hs : ∀ x, x ∈ s ↔ x ∈ ids ∧ r.CanReign year x) :
    oldest? (r.grown year ids) = none ↔ s = ∅ := by
  rw [oldest?_eq_none, List.eq_nil_iff_forall_not_mem, Set.eq_empty_iff_forall_notMem]
  constructor
  · intro hnone x hx
    obtain ⟨hids, p, hp, hgrown⟩ := (hs x).1 hx
    exact hnone p (mem_grown.2 ⟨x, hids, hp, hgrown⟩)
  · intro hnone p hp
    obtain ⟨x, hids, hget, hgrown⟩ := mem_grown.1 hp
    exact hnone x ((hs x).2 ⟨hids, p, hget, hgrown⟩)

/-! ## Heirs -/

/-- The siblings of a person are the other children of either parent. -/
theorem mem_siblingIds_iff {p : Person} (hp : r.get? id = some p) : x ∈ r.siblingIds p id ↔
    x ≠ id ∧ ∃ mother father, r.parentsOf id = some (mother, father) ∧
      (x ∈ r.childrenOf mother ∨ x ∈ r.childrenOf father) := by
  have hchild : ∀ q, x ∈ r.childrenOf q ↔ ∃ parent, r.get? q = some parent ∧
      x ∈ parent.children := by
    intro q
    unfold childrenOf
    cases r.get? q with
    | none => simp
    | some parent => simp
  unfold siblingIds
  rw [parentsOf_of_get? hp]
  cases p.parents with
  | none => simp
  | some parents =>
    obtain ⟨mother, father⟩ := parents
    simp only [List.mem_filter, List.mem_flatMap, List.mem_filterMap, List.mem_cons,
      List.not_mem_nil, or_false, decide_eq_true_eq, Option.some.injEq, Prod.mk.injEq, hchild]
    constructor
    · rintro ⟨⟨parent, ⟨q, rfl | rfl, hq⟩, hx⟩, hne⟩
      · exact ⟨hne, q, father, ⟨rfl, rfl⟩, .inl ⟨parent, hq, hx⟩⟩
      · exact ⟨hne, mother, q, ⟨rfl, rfl⟩, .inr ⟨parent, hq, hx⟩⟩
    · rintro ⟨hne, _, _, ⟨rfl, rfl⟩, ⟨parent, hq, hx⟩ | ⟨parent, hq, hx⟩⟩
      · exact ⟨⟨parent, ⟨_, .inl rfl, hq⟩, hx⟩, hne⟩
      · exact ⟨⟨parent, ⟨_, .inr rfl, hq⟩, hx⟩, hne⟩

/-- The search for an heir keeps to the law. -/
theorem inherits_heir? (h : r.Numbered) (id : PersonId) (year : Year) :
    r.Inherits (r.grownChildren year id) (r.grownSiblings year id) (r.heir? id year) := by
  unfold heir?
  cases hp : r.get? id with
  | none =>
    -- An unknown id has no children and no parents.
    refine .nobody (Set.eq_empty_iff_forall_notMem.2 ?_) (Set.eq_empty_iff_forall_notMem.2 ?_)
    · rintro x ⟨hchild, -⟩
      unfold childrenOf at hchild
      rw [hp] at hchild
      exact List.not_mem_nil hchild
    · rintro x ⟨-, -, mother, father, hparents, -⟩
      unfold parentsOf at hparents
      rw [hp] at hparents
      cases hparents
  | some p =>
    have hchildren : ∀ x, x ∈ r.grownChildren year id ↔ x ∈ p.children ∧ r.CanReign year x := by
      intro x
      show x ∈ r.childrenOf id ∧ _ ↔ _
      rw [childrenOf_of_get? hp]
    have hsiblings : ∀ x, x ∈ r.grownSiblings year id ↔
        x ∈ r.siblingIds p id ∧ r.CanReign year x := by
      intro x
      rw [mem_siblingIds_iff hp]
      exact ⟨fun hx => ⟨⟨hx.1, hx.2.2⟩, hx.2.1⟩, fun hx => ⟨hx.1.1, hx.2, hx.1.2⟩⟩
    dsimp only
    cases hchild : oldest? (r.grown year p.children) with
    | some child => exact .child (isEldest_oldest? h hchildren hchild)
    | none =>
      have hchildless := (oldest?_grown_eq_none hchildren).1 hchild
      cases hsibling : oldest? (r.grown year (r.siblingIds p id)) with
      | some sibling => exact .sibling hchildless (isEldest_oldest? h hsiblings hsibling)
      | none => exact .nobody hchildless ((oldest?_grown_eq_none hsiblings).1 hsibling)

/-- Whatever the lists of children look like, the search for the heir of an id gives whom the law
gives: the eldest child who can reign; without any the eldest sibling who can, where half siblings
count; and without any of these nobody. Two rosters with the same grown children and siblings, born
in the same years, give the same heir. -/
theorem heir?_lawful (h : r.Numbered) (id : PersonId) (year : Year) :
    (∀ o, r.heir? id year = o ↔
      r.Inherits (r.grownChildren year id) (r.grownSiblings year id) o) ∧
    ∀ r' : Roster, r'.Numbered → r'.grownChildren year id = r.grownChildren year id →
      r'.grownSiblings year id = r.grownSiblings year id →
      (∀ x ∈ r.grownChildren year id ∪ r.grownSiblings year id, r'.birthOf x = r.birthOf x) →
      r'.heir? id year = r.heir? id year := by
  have hlaw := inherits_heir? h id year
  refine ⟨fun o => ⟨fun heq => heq ▸ hlaw, hlaw.unique⟩, fun r' h' hchildren hsiblings hbirth => ?_⟩
  have hlaw' := inherits_heir? h' id year
  rw [hchildren, hsiblings] at hlaw'
  exact hlaw'.unique (hlaw.congr hbirth)

/-- Somebody of noble birth. -/
def Arrival.noble (name : String) (gender : Gender) (birthYear : Year) : Arrival :=
  { name, gender, birthYear, faction := "Noble Houses", region := "Central Valley", health := 100 }

/-- A king with a small daughter, and with an elder half sister whom the father lists twice and
whose mother is not known. -/
def halfSisters : Roster :=
  let queen := (empty.spawn (.noble "Kyra" .female 930)).2
  let couple := (queen.spawn (.noble "Baelor" .male 928)).2
  let king := (couple.spawn (.noble "Aegon" .male 960)).2
  let sister := (king.spawn (.noble "Lyra" .female 958)).2
  let daughter := (sister.spawn (.noble "Wren" .female 990)).2
  (((daughter.addChild ⟨0⟩ ⟨1⟩ ⟨2⟩).addChild ⟨9⟩ ⟨1⟩ ⟨3⟩).addChild ⟨9⟩ ⟨1⟩ ⟨3⟩).addChild ⟨8⟩ ⟨2⟩ ⟨4⟩

theorem halfSisters_numbered : halfSisters.Numbered :=
  ((((((((numbered_empty.spawn _).spawn _).spawn _).spawn _).spawn _).addChild ⟨0⟩ ⟨1⟩ ⟨2⟩).addChild
    ⟨9⟩ ⟨1⟩ ⟨3⟩).addChild ⟨9⟩ ⟨1⟩ ⟨3⟩).addChild ⟨8⟩ ⟨2⟩ ⟨4⟩

/-- The daughter is too young, and the half sister follows the king. -/
theorem heir?_lawful_halfSisters :
    halfSisters.Numbered ∧ halfSisters.childrenOf ⟨1⟩ = [⟨2⟩, ⟨3⟩, ⟨3⟩] ∧
    halfSisters.heir? ⟨2⟩ 1000 = some (⟨3⟩, .sibling) ∧
    halfSisters.grownChildren 1000 ⟨2⟩ = ∅ ∧
    halfSisters.IsEldest (halfSisters.grownSiblings 1000 ⟨2⟩) ⟨3⟩ := by
  have hheir : halfSisters.heir? ⟨2⟩ 1000 = some (⟨3⟩, .sibling) := by decide +kernel
  obtain ⟨hlaw, -⟩ := heir?_lawful halfSisters_numbered ⟨2⟩ 1000
  refine ⟨halfSisters_numbered, by decide +kernel, hheir, ?_⟩
  cases (hlaw _).1 hheir with
  | sibling hchildless heldest => exact ⟨hchildless, heldest⟩

end Annals.Roster
