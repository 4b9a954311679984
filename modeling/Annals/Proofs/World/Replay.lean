import Annals.Event
/-!
# Replaying effects

The effects of reported events, applied again in the order of the report. Effects look at stats
only, so a replay can start from any world with the same stats.

* `World.SameStats`: two worlds with the same regions and factions.
* `World.replay`: a world after the effects of reported events.
* `SameStats.replay`: replays from the same stats end in the same stats.
* `SameStats.holds`: conditions look at the year and at stats only.
-/

namespace Annals

namespace World

/-- Two worlds whose regions and factions have the same stats. -/
structure SameStats (w v : World) : Prop where
  regions : w.regions = v.regions
  factions : w.factions = v.factions

/-- The world after the effects of reported events, in the order of the report. -/
def replay (w : World) (fired : List Occurrence) : World :=
  fired.foldl (fun w o => (Effect.applyAll w o.effects).1) w

@[simp] theorem replay_nil (w : World) : w.replay [] = w := rfl

@[simp] theorem replay_cons (w : World) (o : Occurrence) (fired : List Occurrence) :
    w.replay (o :: fired) = ((Effect.applyAll w o.effects).1).replay fired := rfl

@[simp] theorem replay_append (w : World) (earlier later : List Occurrence) :
    w.replay (earlier ++ later) = (w.replay earlier).replay later := by
  simp [replay, List.foldl_append]

end World

/-! ## What effects leave alone -/

namespace Effect

/-- Moving a stat does nothing, or it sets that stat. -/
theorem adjustStat_eq (target : Target) (stat : String) (amount : Int64) (w : World) :
    (adjustStat target stat amount w).1 = w ∨
      ∃ value, (adjustStat target stat amount w).1 =
        w.setStat target.side target.name stat value := by
  unfold adjustStat
  split
  · exact .inl rfl
  · exact .inr ⟨_, rfl⟩

/-- An effect does nothing, or it sets one stat. -/
theorem apply_eq (w : World) (e : Effect) :
    (apply w e).1 = w ∨
      ∃ side owner stat value, (apply w e).1 = w.setStat side owner stat value := by
  cases e with
  | adjust target stat amount =>
    rcases adjustStat_eq target stat amount w with h | ⟨value, h⟩
    · exact .inl h
    · exact .inr ⟨_, _, _, value, h⟩
  | appoint faction leader => exact .inr ⟨.faction, faction, leaderStat, .text leader, rfl⟩
  | unknown kind => exact .inl rfl

/-- An effect changes neither the year nor the queue. -/
theorem apply_frame (w : World) (e : Effect) :
    (apply w e).1.year = w.year ∧ (apply w e).1.queue = w.queue := by
  rcases apply_eq w e with h | ⟨side, owner, stat, value, h⟩
  · rw [h]
    exact ⟨rfl, rfl⟩
  · rw [h]
    simp [World.setStat]

theorem applyAll_frame (w : World) (es : List Effect) :
    (applyAll w es).1.year = w.year ∧ (applyAll w es).1.queue = w.queue := by
  -- The frame of each effect adds up to the frame of the list.
  induction es generalizing w with
  | nil => exact ⟨rfl, rfl⟩
  | cons e es ih =>
    obtain ⟨hyear, hqueue⟩ := apply_frame w e
    obtain ⟨hyears, hqueues⟩ := ih (apply w e).1
    exact ⟨hyears.trans hyear, hqueues.trans hqueue⟩

@[simp] theorem year_applyAll (w : World) (es : List Effect) :
    (applyAll w es).1.year = w.year := (applyAll_frame w es).1

@[simp] theorem queue_applyAll (w : World) (es : List Effect) :
    (applyAll w es).1.queue = w.queue := (applyAll_frame w es).2

end Effect

namespace World

@[simp] theorem year_replay (w : World) (fired : List Occurrence) :
    (w.replay fired).year = w.year := by
  induction fired generalizing w with
  | nil => rfl
  | cons o fired ih => simp [ih]

/-! ## Worlds with the same stats -/

namespace SameStats

variable {w v u : World}

theorem refl (w : World) : w.SameStats w := ⟨rfl, rfl⟩

theorem trans (h : w.SameStats v) (h' : v.SameStats u) : w.SameStats u :=
  ⟨h.regions.trans h'.regions, h.factions.trans h'.factions⟩

theorem owners (h : w.SameStats v) (side : Side) : w.owners side = v.owners side := by
  cases side with
  | region => exact h.regions
  | faction => exact h.factions

theorem stat? (h : w.SameStats v) (side : Side) (owner stat : String) :
    w.stat? side owner stat = v.stat? side owner stat := by
  unfold World.stat? owner?
  rw [h.owners side]

theorem setStat (h : w.SameStats v) (side : Side) (owner stat : String) (value : Stat) :
    (w.setStat side owner stat value).SameStats (v.setStat side owner stat value) := by
  unfold World.setStat owner?
  rw [h.owners side]
  cases side with
  | region => exact ⟨rfl, h.factions⟩
  | faction => exact ⟨h.regions, rfl⟩

theorem adjustStat (h : w.SameStats v) (target : Target) (stat : String) (amount : Int64) :
    (Effect.adjustStat target stat amount w).1.SameStats
      (Effect.adjustStat target stat amount v).1 := by
  unfold Effect.adjustStat
  rw [h.stat? target.side target.name stat]
  split
  · exact h
  · exact h.setStat ..

theorem apply (h : w.SameStats v) (e : Effect) :
    (Effect.apply w e).1.SameStats (Effect.apply v e).1 := by
  cases e with
  | adjust target stat amount => exact h.adjustStat target stat amount
  | appoint faction leader => exact h.setStat .faction faction Effect.leaderStat (.text leader)
  | unknown kind => exact h

theorem applyAll (h : w.SameStats v) (es : List Effect) :
    (Effect.applyAll w es).1.SameStats (Effect.applyAll v es).1 := by
  induction es generalizing w v with
  | nil => exact h
  | cons e es ih => exact ih (h.apply e)

theorem replay (h : w.SameStats v) (fired : List Occurrence) :
    (w.replay fired).SameStats (v.replay fired) := by
  induction fired generalizing w v with
  | nil => exact h
  | cons o fired ih => exact ih (h.applyAll o.effects)

theorem testHolds (h : w.SameStats v) (test : StatTest) : test.holds w = test.holds v := by
  unfold StatTest.holds
  rw [h.stat?]

theorem holds (h : w.SameStats v) (hyear : w.year = v.year) :
    Condition.holds w = Condition.holds v := by
  funext c
  cases c with
  | year comparison value => simp [Condition.holds, hyear]
  | stat test => exact h.testHolds test
  | named name => simp [Condition.holds, h.testHolds]
  | unknown kind => rfl

theorem allHold (h : w.SameStats v) (hyear : w.year = v.year) (cs : List Condition) :
    Condition.allHold w cs = Condition.allHold v cs := by
  unfold Condition.allHold
  rw [h.holds hyear]

end SameStats

end World

end Annals
