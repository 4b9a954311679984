import Annals.Event
import Annals.World.Beginning
/-!
# Bounds of stats

An effect holds the number that it writes between zero and a hundred. It never removes anything, it
never turns a text into a number, and the only text it writes is the name of a faction's leader. So
the stats of a world, however many effects have been applied, are told from those at the start by
few rules.

* `World.Evolves`: what effects may make of a world's stats.
* `World.Bounded`: all numbers are within bounds; `Evolves.bounded`: they stay there.
* `Evolves.setStat`: setting one stat, if the new value is allowed.
* `World.evolves_applyAll`: effects make no more of stats than that.
* `World.bounded_beginning`: a run begins within bounds.
-/

namespace Annals

/-! ## Numbers within bounds -/

/-- A number that an effect may write. -/
def Effect.Within (n : Int64) : Prop := 0 ≤ n ∧ n ≤ 100

/-- Whatever the number was, it is within bounds afterwards. -/
theorem Effect.within_clamp (n : Int64) : Within (clamp n) := by
  have hends : Within floor ∧ Within ceiling := by
    unfold Within
    decide
  unfold clamp
  split
  case isTrue => exact hends.1
  case isFalse hlow =>
    split
    case isTrue => exact hends.2
    case isFalse hhigh => exact ⟨Int64.not_lt.1 hlow, Int64.not_lt.1 hhigh⟩

namespace World

/-- All numeric stats are within bounds. -/
def Bounded (w : World) : Prop :=
  ∀ side owner stat n, w.stat? side owner stat = some (.number n) → Effect.Within n

/-- What events may make of the stats of a world. -/
structure Evolves (w v : World) : Prop where
  /-- No region and no faction is lost. -/
  owner_stays : ∀ side owner, (w.owner? side owner).isSome = true →
    (v.owner? side owner).isSome = true
  /-- No stat is lost. -/
  stat_stays : ∀ side owner stat, (w.stat? side owner stat).isSome = true →
    (v.stat? side owner stat).isSome = true
  /-- A number is the old one, or it is within bounds. -/
  number : ∀ side owner stat n, v.stat? side owner stat = some (.number n) →
    w.stat? side owner stat = some (.number n) ∨ (0 ≤ n ∧ n ≤ 100)
  /-- No text becomes a number. -/
  text_stays : ∀ side owner stat s, w.stat? side owner stat = some (.text s) →
    ∃ s', v.stat? side owner stat = some (.text s')
  /-- A text is the old one, or it is the leader of a faction. -/
  text : ∀ side owner stat s, v.stat? side owner stat = some (.text s) →
    w.stat? side owner stat = some (.text s) ∨ (side = .faction ∧ stat = "leader")

/-! ## One stat -/

/-- Owners stay when a stat is set. -/
theorem isSome_owner?_setStat {w : World} {side' : Side} {owner' : String}
    (h : (w.owner? side' owner').isSome = true) (side : Side) (owner stat : String)
    (value : Stat) : ((w.setStat side owner stat value).owner? side' owner').isSome = true := by
  unfold owner? setStat at *
  by_cases hside : side' = side
  · subst hside
    rw [owners_withOwners_self]
    by_cases howner : owner' = owner
    · rw [howner, Table.get?_insert_self]
      rfl
    · rw [Table.get?_insert_ne howner]
      exact h
  · rw [owners_withOwners_ne hside]
    exact h

/-- A stat of the new world is the one that was set, or it is the old one. -/
theorem stat?_setStat_cases (w : World) (side : Side) (owner stat : String) (value : Stat)
    (side' : Side) (owner' stat' : String) :
    (side', owner', stat') = (side, owner, stat) ∨
      (w.setStat side owner stat value).stat? side' owner' stat' = w.stat? side' owner' stat' := by
  by_cases h : (side', owner', stat') = (side, owner, stat)
  · exact .inl h
  · exact .inr (stat?_setStat_ne h w value)

namespace Evolves

variable {w v u : World}

theorem refl (w : World) : w.Evolves w where
  owner_stays := fun _ _ h => h
  stat_stays := fun _ _ _ h => h
  number := fun _ _ _ _ h => .inl h
  text_stays := fun _ _ _ s h => ⟨s, h⟩
  text := fun _ _ _ _ h => .inl h

theorem trans (h : w.Evolves v) (h' : v.Evolves u) : w.Evolves u where
  owner_stays := fun side owner hw => h'.owner_stays side owner (h.owner_stays side owner hw)
  stat_stays := fun side owner stat hw =>
    h'.stat_stays side owner stat (h.stat_stays side owner stat hw)
  number := by
    intro side owner stat n hu
    rcases h'.number side owner stat n hu with hv | hwithin
    · exact h.number side owner stat n hv
    · exact .inr hwithin
  text_stays := by
    intro side owner stat s hw
    obtain ⟨s', hv⟩ := h.text_stays side owner stat s hw
    exact h'.text_stays side owner stat s' hv
  text := by
    intro side owner stat s hu
    rcases h'.text side owner stat s hu with hv | hleader
    · exact h.text side owner stat s hv
    · exact .inr hleader

/-- Numbers that are within bounds stay there. -/
theorem bounded (h : w.Evolves v) (hw : w.Bounded) : v.Bounded := by
  intro side owner stat n hv
  rcases h.number side owner stat n hv with hold | hwithin
  · exact hw side owner stat n hold
  · exact hwithin

/-- Stats alone decide what may become of them. -/
theorem of_owners (h : ∀ side, v.owners side = w.owners side) : w.Evolves v := by
  have howner : ∀ side owner, v.owner? side owner = w.owner? side owner := by
    intro side owner
    unfold owner?
    rw [h side]
  have hstat : ∀ side owner stat, v.stat? side owner stat = w.stat? side owner stat := by
    intro side owner stat
    unfold stat?
    rw [howner side owner]
  constructor
  case owner_stays => exact fun side owner hw => (howner side owner).symm ▸ hw
  case stat_stays => exact fun side owner stat hw => (hstat side owner stat).symm ▸ hw
  case number => exact fun side owner stat n hv => .inl (hstat side owner stat ▸ hv)
  case text_stays => exact fun side owner stat s hw => ⟨s, (hstat side owner stat).trans hw⟩
  case text => exact fun side owner stat s hv => .inl (hstat side owner stat ▸ hv)

/-- A stat may be set to a number within bounds when it is no text, and to a text when it is the
leader of a faction. -/
theorem setStat {side : Side} {owner stat : String} {value : Stat}
    (hnumber : ∀ n, value = .number n →
      Effect.Within n ∧ ∀ s, w.stat? side owner stat ≠ some (.text s))
    (htext : ∀ s, value = .text s → side = .faction ∧ stat = "leader") :
    w.Evolves (w.setStat side owner stat value) := by
  -- Any other stat is the old one, so each rule is about the stat that was set.
  have hcell := stat?_setStat_cases w side owner stat value
  constructor
  case owner_stays => exact fun side' owner' h => isSome_owner?_setStat h side owner stat value
  case stat_stays =>
    intro side' owner' stat' h
    rcases hcell side' owner' stat' with heq | hsame
    · cases heq
      rw [stat?_setStat_self]
      rfl
    · rw [hsame]
      exact h
  case number =>
    intro side' owner' stat' n h
    rcases hcell side' owner' stat' with heq | hsame
    · cases heq
      rw [stat?_setStat_self] at h
      exact .inr (hnumber n (Option.some.inj h)).1
    · exact .inl (hsame ▸ h)
  case text_stays =>
    intro side' owner' stat' s h
    rcases hcell side' owner' stat' with heq | hsame
    · cases heq
      cases value with
      | number n => exact absurd h ((hnumber n rfl).2 s)
      | text s' => exact ⟨s', stat?_setStat_self ..⟩
    · exact ⟨s, hsame.trans h⟩
  case text =>
    intro side' owner' stat' s h
    rcases hcell side' owner' stat' with heq | hsame
    · cases heq
      rw [stat?_setStat_self] at h
      exact .inr (htext s (Option.some.inj h))
    · exact .inl (hsame ▸ h)

end Evolves

/-! ## Effects -/

/-- An amount moves a number to a place within bounds, and leaves a text alone. -/
theorem evolves_adjustStat (w : World) (target : Target) (stat : String) (amount : Int64) :
    w.Evolves (Effect.adjustStat target stat amount w).1 := by
  unfold Effect.adjustStat
  split
  case h_1 => exact .refl w
  case h_2 found hnotText =>
    refine .setStat (fun n hn => ?_) (fun s hs => ?_)
    · cases hn
      exact ⟨Effect.within_clamp _, fun s hs => hnotText s hs⟩
    · cases hs

theorem evolves_apply (w : World) (e : Effect) : w.Evolves (Effect.apply w e).1 := by
  cases e with
  | adjust target stat amount => exact evolves_adjustStat w target stat amount
  | appoint faction leader =>
    refine .setStat (fun n hn => ?_) (fun s _ => ⟨rfl, rfl⟩)
    cases hn
  | unknown kind => exact .refl w

/-- Effects keep to the rules, one after the other. -/
theorem evolves_applyAll (w : World) (es : List Effect) :
    w.Evolves (Effect.applyAll w es).1 := by
  induction es generalizing w with
  | nil => exact .refl w
  | cons e es ih => exact (evolves_apply w e).trans (ih _)

/-! ## The beginning -/

/-- A world within bounds stays so when a stat is set to such a number or to a text. -/
theorem Bounded.setStat {w : World} (h : w.Bounded) {side : Side} {owner stat : String}
    {value : Stat} (hvalue : ∀ n, value = .number n → Effect.Within n) :
    (w.setStat side owner stat value).Bounded := by
  intro side' owner' stat' n hn
  rcases stat?_setStat_cases w side owner stat value side' owner' stat' with heq | hsame
  · cases heq
    rw [stat?_setStat_self] at hn
    exact hvalue n (Option.some.inj hn)
  · exact h side' owner' stat' n (hsame ▸ hn)

theorem Bounded.settle {w : World} (h : w.Bounded) (side : Side)
    {owners : List (String × List (String × Int64))}
    (howners : ∀ o ∈ owners, ∀ s ∈ o.2, Effect.Within s.2) : (w.settle side owners).Bounded := by
  unfold World.settle
  refine List.foldlRecOn owners _ h fun w hw o ho => ?_
  refine List.foldlRecOn o.2 _ hw fun w hw s hs => ?_
  refine hw.setStat fun n hn => ?_
  cases hn
  exact howners o ho s hs

/-- A run begins with all numbers within bounds. -/
theorem bounded_beginning (year : Year) : (beginning year).Bounded := by
  have hblank : (blank year).Bounded := by
    intro side owner stat n hn
    cases side <;> cases hn
  have hregions : ∀ o ∈ firstRegions, ∀ s ∈ o.2, Effect.Within s.2 := by
    unfold Effect.Within
    decide
  have hfactions : ∀ o ∈ firstFactions, ∀ s ∈ o.2, Effect.Within s.2 := by
    unfold Effect.Within
    decide
  refine ((hblank.settle .region hregions).settle .faction hfactions).setStat fun n hn => ?_
  cases hn

end World

end Annals
