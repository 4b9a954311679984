import Mathlib.Logic.Function.Basic
import Annals.Proofs.Family.Genealogy
/-!
# Homes

A person who was born into a dynasty or has married into it belongs to its house for good. A house
is told by its founder. The family of a dynasty is the living part of its house, kin belong to the
same house, and whoever stands on the market belongs to none.

* `Settled`: a map from persons to houses that fits dynasties, roster and market.
* `Settled.leave`, `Settled.join`, `Settled.keep`: deaths, weddings and births, and all else.
* `Settled.home_heir`: an heir belongs to the house of the dead monarch.
-/

namespace Annals

/-- The family of a dynasty is the living part of its house. -/
def Dynasty.HoldsLiving (home : PersonId → Option PersonId) (r : Roster) (d : Dynasty) : Prop :=
  ∀ x, x ∈ d.family ↔ r.isAlive x = true ∧ home x = some d.founder

/-- A map from persons to houses, told by their founders, that fits the links of a roster and a
market of outsiders. -/
structure Homes (home : PersonId → Option PersonId) (founders : List PersonId) (r : Roster)
    (m : Market) : Prop where
  distinct : founders.Nodup
  founded : ∀ {x f}, home x = some f → f ∈ founders
  rooted : ∀ f ∈ founders, home f = some f
  known : ∀ {x f}, home x = some f → ∃ g, r.genderOf x = some g
  partners : ∀ {a b}, b ∈ r.partnersOf a → home b = home a
  parents : ∀ {c mother father}, r.parentsOf c = some (mother, father) → home c = home mother
  homeless : ∀ {x}, home x = none → r.partnersOf x = [] ∧ r.parentsOf x = none
  market : ∀ x ∈ m.persons, home x = none ∧ ∃ g, r.genderOf x = some g

/-- A map from persons to houses that fits dynasties, roster and market. -/
structure Settled (home : PersonId → Option PersonId) (ds : List Dynasty) (r : Roster)
    (m : Market) : Prop where
  homes : Homes home (ds.map Dynasty.founder) r m
  living : ∀ d ∈ ds, d.HoldsLiving home r

/-! ## Lists of dynasties -/

section Lists

variable {before behind : List Dynasty} {d d' : Dynasty}

/-- What holds for all dynasties still holds when one of them has changed, if it holds for that one
and is not lost for the others. -/
theorem forall_mem_replace {Q Q' : Dynasty → Prop} (hall : ∀ e ∈ before ++ d :: behind, Q e)
    (hothers : ∀ e ∈ before ++ behind, Q e → Q' e) (hown : Q' d') :
    ∀ e ∈ before ++ d' :: behind, Q' e := by
  intro e he
  rw [List.mem_append, List.mem_cons] at he
  rcases he with hbefore | rfl | hbehind
  · exact hothers e (List.mem_append_left _ hbefore) (hall e (List.mem_append_left _ hbefore))
  · exact hown
  · refine hothers e (List.mem_append_right _ hbehind) (hall e ?_)
    exact List.mem_append_right _ (List.mem_cons_of_mem d hbehind)

theorem map_founder_replace (h : d'.founder = d.founder) :
    (before ++ d' :: behind).map Dynasty.founder = (before ++ d :: behind).map Dynasty.founder := by
  rw [List.map_append, List.map_append, List.map_cons, List.map_cons, h]

/-- Dynasties with founders of their own are told apart by them. -/
theorem founder_ne (h : ((before ++ d :: behind).map Dynasty.founder).Nodup) :
    ∀ e ∈ before ++ behind, e.founder ≠ d.founder := by
  rw [List.map_append, List.map_cons, List.nodup_middle, List.nodup_cons, ← List.map_append] at h
  intro e he heq
  refine h.1 ?_
  rw [← heq]
  exact List.mem_map_of_mem he

end Lists

namespace Homes

variable {home : PersonId → Option PersonId} {founders : List PersonId} {r r' : Roster}
  {m m' : Market}

theorem empty : Homes (fun _ => none) [] .empty .empty where
  distinct := List.nodup_nil
  founded := fun h => nomatch h
  rooted := fun _ h => absurd h List.not_mem_nil
  known := fun h => nomatch h
  partners := fun _ => rfl
  parents := fun _ => rfl
  homeless := fun _ => ⟨rfl, rfl⟩
  market := fun _ h => absurd h List.not_mem_nil

/-- A change without new links leaves everyone at home. -/
theorem keep (h : Homes home founders r m) (hlater : r.Continues r') (hlinks : r.SameLinks r') :
    Homes home founders r' m where
  distinct := h.distinct
  founded := h.founded
  rooted := h.rooted
  known := by
    intro x f hx
    obtain ⟨g, hg⟩ := h.known hx
    exact ⟨g, hlater.genderOf hg⟩
  partners := by
    intro a b hb
    rw [hlinks.partners] at hb
    exact h.partners hb
  parents := by
    intro c mother father hc
    rw [hlinks.parents] at hc
    exact h.parents hc
  homeless := by
    intro x hx
    rw [hlinks.partners, hlinks.parents]
    exact h.homeless hx
  market := by
    intro x hx
    obtain ⟨hhome, g, hg⟩ := h.market x hx
    exact ⟨hhome, g, hlater.genderOf hg⟩

/-- Whoever leaves the market stays without a house. -/
theorem market_mono (h : Homes home founders r m) (hsub : m'.persons ⊆ m.persons) :
    Homes home founders r m' :=
  { h with market := fun x hx => h.market x (hsub hx) }

/-- Nobody without a house is a founder. -/
theorem ne_founder (h : Homes home founders r m) {x f : PersonId} (hx : home x = none)
    (hf : f ∈ founders) : f ≠ x := by
  rintro rfl
  rw [h.rooted f hf] at hx
  cases hx

/-- Whoever has no house has no links to anyone. -/
theorem unlinked (h : Homes home founders r m) (hr : r.Genealogy) {x : PersonId}
    (hx : home x = none) :
    (∀ {a b}, b ∈ r.partnersOf a → a ≠ x ∧ b ≠ x) ∧
    (∀ {c mother father}, r.parentsOf c = some (mother, father) → c ≠ x ∧ mother ≠ x) := by
  obtain ⟨hlonely, horphan⟩ := h.homeless hx
  have hpartners : ∀ {a b}, b ∈ r.partnersOf a → a ≠ x := by
    rintro a b hb rfl
    rw [hlonely] at hb
    exact List.not_mem_nil hb
  refine ⟨fun hb => ⟨hpartners hb, hpartners (hr.symmetric hb)⟩, fun hc => ⟨?_, ?_⟩⟩
  · rintro rfl
    rw [horphan] at hc
    cases hc
  · exact hpartners (hr.wedded hc).2

/-- Links of a newcomer to a house. -/
structure Joins (home : PersonId → Option PersonId) (f x : PersonId) (r r' : Roster) : Prop where
  known : ∃ g, r'.genderOf x = some g
  partners : ∀ {a b}, b ∈ r'.partnersOf a →
    b ∈ r.partnersOf a ∨ (a = x ∧ home b = some f) ∨ (b = x ∧ home a = some f)
  parents : ∀ {c mother father}, r'.parentsOf c = some (mother, father) →
    r.parentsOf c = some (mother, father) ∨ (c = x ∧ home mother = some f)

/-- Someone without a house joins one, with links to those who belong to it. -/
theorem join (h : Homes home founders r m) (hr : r.Genealogy) {f x : PersonId} (hf : f ∈ founders)
    (hx : home x = none) (hlater : r.Continues r') (hjoins : Joins home f x r r')
    (hmarket : ∀ y ∈ m'.persons, y ∈ m.persons ∧ y ≠ x) :
    Homes (Function.update home x (some f)) founders r' m' := by
  have hnew : Function.update home x (some f) x = some f := Function.update_self ..
  have hold : ∀ {y}, y ≠ x → Function.update home x (some f) y = home y :=
    fun hne => Function.update_of_ne hne ..
  -- Whoever has no house afterwards is not the newcomer and has had none before.
  have hnone : ∀ {y}, Function.update home x (some f) y = none → y ≠ x ∧ home y = none := by
    intro y hy
    by_cases hyx : y = x
    · rw [hyx, hnew] at hy
      cases hy
    · exact ⟨hyx, hold hyx ▸ hy⟩
  have hne : ∀ {y g}, home y = some g → y ≠ x := by
    rintro y g hy rfl
    rw [hx] at hy
    cases hy
  obtain ⟨hpartners, hparents⟩ := h.unlinked hr hx
  refine
    { distinct := h.distinct, founded := ?founded, rooted := ?rooted, known := ?known
      partners := ?partners, parents := ?parents, homeless := ?homeless, market := ?market }
  case founded =>
    intro y g hy
    by_cases hyx : y = x
    · rw [hyx, hnew] at hy
      cases hy
      exact hf
    · rw [hold hyx] at hy
      exact h.founded hy
  case rooted =>
    intro g hg
    rw [hold (h.ne_founder hx hg)]
    exact h.rooted g hg
  case known =>
    intro y g hy
    by_cases hyx : y = x
    · rw [hyx]
      exact hjoins.known
    · rw [hold hyx] at hy
      obtain ⟨gender, hgender⟩ := h.known hy
      exact ⟨gender, hlater.genderOf hgender⟩
  case partners =>
    intro a b hb
    -- Old links do not touch the newcomer; new ones lead into the house.
    rcases hjoins.partners hb with hbefore | ⟨rfl, hhome⟩ | ⟨rfl, hhome⟩
    · obtain ⟨hax, hbx⟩ := hpartners hbefore
      rw [hold hax, hold hbx]
      exact h.partners hbefore
    · rw [hnew, hold (hne hhome), hhome]
    · rw [hnew, hold (hne hhome), hhome]
  case parents =>
    intro c mother father hc
    rcases hjoins.parents hc with hbefore | ⟨rfl, hhome⟩
    · obtain ⟨hcx, hmx⟩ := hparents hbefore
      rw [hold hcx, hold hmx]
      exact h.parents hbefore
    · rw [hnew, hold (hne hhome), hhome]
  case homeless =>
    intro y hy
    obtain ⟨hyx, hyhome⟩ := hnone hy
    obtain ⟨hlonely, horphan⟩ := h.homeless hyhome
    constructor
    · refine List.eq_nil_iff_forall_not_mem.2 fun b hb => ?_
      rcases hjoins.partners hb with hbefore | ⟨hyx', -⟩ | ⟨-, hhome⟩
      · rw [hlonely] at hbefore
        exact List.not_mem_nil hbefore
      · exact hyx hyx'
      · rw [hyhome] at hhome
        cases hhome
    · refine Option.eq_none_iff_forall_ne_some.2 fun q hq => ?_
      rcases hjoins.parents hq with hbefore | ⟨hyx', -⟩
      · rw [horphan] at hbefore
        cases hbefore
      · exact hyx hyx'
  case market =>
    intro y hy
    obtain ⟨hymarket, hyx⟩ := hmarket y hy
    obtain ⟨hyhome, gender, hgender⟩ := h.market y hymarket
    exact ⟨(hold hyx).trans hyhome, gender, hlater.genderOf hgender⟩

/-- Someone without a house founds one. -/
theorem found (h : Homes home founders r m) (hr : r.Genealogy) {x : PersonId} (hx : home x = none)
    (hknown : ∃ g, r.genderOf x = some g) (hmarket : x ∉ m.persons) :
    Homes (Function.update home x (some x)) (founders ++ [x]) r m := by
  have hnew : Function.update home x (some x) x = some x := Function.update_self ..
  have hold : ∀ {y}, y ≠ x → Function.update home x (some x) y = home y :=
    fun hne => Function.update_of_ne hne ..
  obtain ⟨hpartners, hparents⟩ := h.unlinked hr hx
  refine
    { distinct := ?distinct, founded := ?founded, rooted := ?rooted, known := ?known
      partners := ?partners, parents := ?parents, homeless := ?homeless, market := ?market }
  case distinct =>
    refine h.distinct.append (List.nodup_singleton x) ?_
    rw [List.disjoint_singleton]
    exact fun hmem => h.ne_founder hx hmem rfl
  case founded =>
    intro y g hy
    by_cases hyx : y = x
    · rw [hyx, hnew] at hy
      cases hy
      exact List.mem_append_right _ (List.mem_singleton.2 rfl)
    · rw [hold hyx] at hy
      exact List.mem_append_left _ (h.founded hy)
  case rooted =>
    intro g hg
    rw [List.mem_append, List.mem_singleton] at hg
    rcases hg with hg | rfl
    · rw [hold (h.ne_founder hx hg)]
      exact h.rooted g hg
    · exact hnew
  case known =>
    intro y g hy
    by_cases hyx : y = x
    · rw [hyx]
      exact hknown
    · rw [hold hyx] at hy
      exact h.known hy
  case partners =>
    intro a b hb
    obtain ⟨hax, hbx⟩ := hpartners hb
    rw [hold hax, hold hbx]
    exact h.partners hb
  case parents =>
    intro c mother father hc
    obtain ⟨hcx, hmx⟩ := hparents hc
    rw [hold hcx, hold hmx]
    exact h.parents hc
  case homeless =>
    intro y hy
    by_cases hyx : y = x
    · rw [hyx, hnew] at hy
      cases hy
    · rw [hold hyx] at hy
      exact h.homeless hy
  case market =>
    intro y hy
    have hyx : y ≠ x := by
      rintro rfl
      exact hmarket hy
    rw [hold hyx]
    exact h.market y hy

end Homes

namespace Settled

variable {home : PersonId → Option PersonId} {ds before behind : List Dynasty} {d : Dynasty}
  {r r' : Roster} {m m' : Market}

theorem empty : Settled (fun _ => none) [] .empty .empty :=
  ⟨.empty, fun _ h => absurd h List.not_mem_nil⟩

theorem living_self (h : Settled home (before ++ d :: behind) r m) : d.HoldsLiving home r :=
  h.living d (List.mem_append_right _ List.mem_cons_self)

/-- Members belong to the house. -/
theorem home_member (h : Settled home (before ++ d :: behind) r m) {x : PersonId}
    (hx : x ∈ d.family) : home x = some d.founder := ((h.living_self x).1 hx).2

/-- A change without births, deaths and new links leaves everyone at home. -/
theorem keep (h : Settled home ds r m) (hlater : r.Continues r') (hlinks : r.SameLinks r')
    (halive : ∀ x, r'.isAlive x = r.isAlive x) : Settled home ds r' m := by
  refine ⟨h.homes.keep hlater hlinks, fun e he x => ?_⟩
  rw [halive]
  exact h.living e he x

/-- Whoever leaves the market stays without a house. -/
theorem market_mono (h : Settled home ds r m) (hsub : m'.persons ⊆ m.persons) :
    Settled home ds r m' := ⟨h.homes.market_mono hsub, h.living⟩

/-- A dynasty may change, but for its founder and its family. -/
theorem replace (h : Settled home (before ++ d :: behind) r m) {d' : Dynasty}
    (hfounder : d'.founder = d.founder) (hfamily : d'.family = d.family) :
    Settled home (before ++ d' :: behind) r m := by
  have hown : d'.HoldsLiving home r := by
    intro x
    rw [hfamily, hfounder]
    exact h.living_self x
  refine ⟨?_, forall_mem_replace h.living (fun _ _ he => he) hown⟩
  rw [map_founder_replace hfounder]
  exact h.homes

/-- Whoever dies leaves the family. -/
theorem leave (h : Settled home (before ++ d :: behind) r m) {x : PersonId}
    (hlater : r.Continues r') (hlinks : r.SameLinks r')
    (halive : ∀ y, r'.isAlive y = true ↔ y ≠ x ∧ r.isAlive y = true)
    (hmember : r.isAlive x = true → x ∈ d.family) :
    Settled home (before ++ d.leave x :: behind) r' m := by
  have hd := h.living_self
  have hfounder : (d.leave x).founder = d.founder := rfl
  refine ⟨?_, forall_mem_replace h.living (fun e he hliving y => ?_) fun y => ?_⟩
  · rw [map_founder_replace hfounder]
    exact h.homes.keep hlater hlinks
  · -- The other families have not had the dead one.
    rw [hliving, halive]
    refine ⟨fun hy => ⟨⟨?_, hy.1⟩, hy.2⟩, fun hy => ⟨hy.1.2, hy.2⟩⟩
    rintro rfl
    rw [h.home_member (hmember hy.1)] at hy
    exact founder_ne h.homes.distinct e he (Option.some.inj hy.2).symm
  · rw [Dynasty.mem_leave, hd, halive]
    exact ⟨fun hy => ⟨⟨hy.2, hy.1.1⟩, hy.1.2⟩, fun hy => ⟨⟨hy.1.2, hy.2⟩, hy.1.1⟩⟩

/-- Someone without a house joins one, alive. -/
theorem join (h : Settled home (before ++ d :: behind) r m) (hr : r.Genealogy) {x : PersonId}
    (hx : home x = none) (hlater : r.Continues r') (hjoins : Homes.Joins home d.founder x r r')
    (halive : ∀ y, r'.isAlive y = true ↔ r.isAlive y = true ∨ y = x)
    (hmarket : ∀ y ∈ m'.persons, y ∈ m.persons ∧ y ≠ x) :
    Settled (Function.update home x (some d.founder)) (before ++ d.join x :: behind) r' m' := by
  have hd := h.living_self
  have hfounder := Dynasty.founder_join d x
  have hmem : d.founder ∈ (before ++ d :: behind).map Dynasty.founder :=
    List.mem_map_of_mem (List.mem_append_right _ List.mem_cons_self)
  refine ⟨?_, forall_mem_replace h.living (fun e he hliving y => ?_) fun y => ?_⟩
  · rw [map_founder_replace hfounder]
    exact h.homes.join hr hmem hx hlater hjoins hmarket
  · rw [hliving, halive]
    by_cases hyx : y = x
    · -- The newcomer belongs to this house and has belonged to none before.
      have hne := founder_ne h.homes.distinct e he
      rw [hyx, Function.update_self, hx]
      simp [hne.symm]
    · rw [Function.update_of_ne hyx]
      simp [hyx]
  · rw [hfounder, Dynasty.mem_join, hd, halive]
    by_cases hyx : y = x
    · rw [hyx, Function.update_self]
      simp
    · rw [Function.update_of_ne hyx]
      simp [hyx]

/-- Someone without a house founds one, alive. -/
theorem found (h : Settled home ds r m) (hr : r.Genealogy) (hnew : home d.founder = none)
    (hknown : ∃ g, r.genderOf d.founder = some g) (hmarket : d.founder ∉ m.persons)
    (halive : r.isAlive d.founder = true) (hfamily : d.family = [d.founder]) :
    Settled (Function.update home d.founder (some d.founder)) (ds ++ [d]) r m := by
  have hfounders : (ds ++ [d]).map Dynasty.founder = ds.map Dynasty.founder ++ [d.founder] := by
    rw [List.map_append]
    rfl
  refine ⟨?_, fun e he y => ?_⟩
  · rw [hfounders]
    exact h.homes.found hr hnew hknown hmarket
  · rw [List.mem_append, List.mem_singleton] at he
    rcases he with he | rfl
    · rw [h.living e he]
      by_cases hyd : y = d.founder
      · have hne := h.homes.ne_founder hnew (List.mem_map_of_mem he)
        rw [hyd, Function.update_self, hnew]
        simp [hne.symm]
      · rw [Function.update_of_ne hyd]
    · rw [hfamily, List.mem_singleton]
      by_cases hye : y = e.founder
      · rw [hye, Function.update_self]
        simp [halive]
      · rw [Function.update_of_ne hye]
        -- Nobody has belonged to the house before its founding.
        simp only [hye, false_iff, not_and]
        intro _ hy
        have hmem := h.homes.founded hy
        exact h.homes.ne_founder hnew hmem rfl

/-! ## Arrivals -/

/-- The next id belongs to no house. -/
theorem home_nextId (h : Settled home ds r m) (hsize : r.size < 2 ^ 32) :
    home r.nextId = none := by
  refine Option.eq_none_iff_forall_ne_some.2 fun f hf => ?_
  obtain ⟨g, hg⟩ := h.homes.known hf
  rw [Roster.genderOf_nextId hsize] at hg
  cases hg

theorem nextId_not_mem (h : Settled home ds r m) (hsize : r.size < 2 ^ 32) :
    r.nextId ∉ m.persons := by
  intro hmem
  obtain ⟨-, g, hg⟩ := h.homes.market _ hmem
  rw [Roster.genderOf_nextId hsize] at hg
  cases hg

/-- Whoever arrives has no house. -/
theorem spawn (h : Settled home ds r m) (hsize : r.size < 2 ^ 32) (a : Roster.Arrival) :
    Settled home ds (r.spawn a).2 m := by
  refine ⟨h.homes.keep (.spawn r a) (.spawn r a), fun e he y => ?_⟩
  rw [h.living e he, Roster.isAlive_spawn_iff hsize]
  refine ⟨fun hy => ⟨.inl hy.1, hy.2⟩, fun hy => ⟨?_, hy.2⟩⟩
  rcases hy.1 with hbefore | rfl
  · exact hbefore
  · rw [h.home_nextId hsize] at hy
    cases hy.2

/-- Whoever arrives can go to the market. -/
theorem arrive (h : Settled home ds r m) (hsize : r.size < 2 ^ 32) (a : Roster.Arrival)
    (years : UInt32) : Settled home ds (r.spawn a).2 (m.add r.nextId years) := by
  have hspawned := h.spawn hsize a
  refine ⟨{ hspawned.homes with market := fun x hx => ?_ }, hspawned.living⟩
  have hx' : x ∈ m.persons ∨ x = r.nextId := by simpa [Market.persons, Market.add] using hx
  rcases hx' with hold | rfl
  · exact hspawned.homes.market x hold
  · exact ⟨h.home_nextId hsize, _, Roster.genderOf_of_get? (Roster.get?_spawn_nextId hsize a)⟩

/-- A couple without a house founds one. -/
theorem ofCouple (h : Settled home ds r m) (hr : r.Genealogy) (name : String) {k q : PersonId}
    (hm : r.Marriageable k q) (hk : home k = none) (hq : home q = none)
    (hkalive : r.isAlive k = true) (hqalive : r.isAlive q = true) (hkmarket : k ∉ m.persons)
    (hqmarket : q ∉ m.persons) :
    ∃ home', Settled home' (ds ++ [.ofCouple name k q]) (r.marry k q) m := by
  obtain ⟨g, hgk, hgq⟩ := hm.opposite
  have hne := Roster.ne_of_opposite hgk hgq
  -- The house is founded by the king alone, and the queen joins it with the wedding.
  obtain ⟨d, rfl, hfamily, hjoin⟩ :
      ∃ d : Dynasty, d.founder = k ∧ d.family = [d.founder] ∧ d.join q = .ofCouple name k q := by
    refine ⟨⟨name, k, q, some k, [k]⟩, rfl, rfl, ?_⟩
    simp [Dynasty.join, Dynasty.isMember, Dynasty.ofCouple, hne.symm]
  have hking := h.found hr hk ⟨g, hgk⟩ hkmarket hkalive hfamily
  have hqhome : Function.update home d.founder (some d.founder) q = none := by
    rw [Function.update_of_ne hne.symm]
    exact hq
  refine ⟨Function.update (Function.update home d.founder (some d.founder)) q (some d.founder), ?_⟩
  rw [← hjoin]
  refine hking.join hr hqhome (.marry r d.founder q) ?joins ?alive ?market
  case joins =>
    have hknown := (Roster.Continues.marry r d.founder q).genderOf hgq
    refine ⟨⟨_, hknown⟩, fun hb => ?_, fun hc => .inl ?_⟩
    · rcases (hr.mem_partnersOf_marry hm).1 hb with hold | ⟨rfl, rfl⟩ | ⟨rfl, rfl⟩
      · exact .inl hold
      · exact .inr (.inr ⟨rfl, Function.update_self ..⟩)
      · exact .inr (.inl ⟨rfl, Function.update_self ..⟩)
    · rw [← Roster.parentsOf_marry]
      exact hc
  case alive =>
    intro y
    rw [Roster.isAlive_marry]
    refine ⟨.inl, ?_⟩
    rintro (hy | rfl)
    · exact hy
    · exact hqalive
  case market =>
    intro y hy
    refine ⟨hy, ?_⟩
    rintro rfl
    exact hqmarket hy

/-- A founding couple has a house of its own. -/
theorem withCouple (h : Settled home ds r .empty) (hr : r.Genealogy) (name : String)
    {king queen : Roster.Arrival} (hking : king.gender = .male) (hqueen : queen.gender = .female)
    (hsize : (r.withCouple king queen).size ≤ 2 ^ 32) :
    ∃ home', Settled home' (ds ++ [.ofCouple name r.nextId (r.spawn king).2.nextId])
      (r.withCouple king queen) .empty := by
  obtain ⟨hfirst, hsecond⟩ := Roster.room_of_withCouple hsize
  have hm := Roster.marriageable_newcomers hking hqueen hfirst hsecond
  have hr' := (hr.spawn king).spawn queen
  have h' := (h.spawn hfirst king).spawn hsecond queen
  have hk := Roster.get?_spawn_of_some (Roster.get?_spawn_nextId hfirst king) queen
  have hq := Roster.get?_spawn_nextId hsecond queen
  obtain ⟨home', hcouple⟩ := h'.ofCouple hr' name hm (h.home_nextId hfirst)
    ((h.spawn hfirst king).home_nextId hsecond) (Roster.isAlive_of_get? hk)
    (Roster.isAlive_of_get? hq) List.not_mem_nil List.not_mem_nil
  exact ⟨home', hcouple.keep (.crown ..) (.crown ..) (Roster.isAlive_crown _ _)⟩

end Settled

end Annals
