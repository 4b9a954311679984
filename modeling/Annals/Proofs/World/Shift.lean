import Annals.Event
import Annals.Proofs.Calendar.Shift
import Annals.World.Beginning
/-!
# Worlds in another calendar

Stats know nothing of the calendar. So a world in another calendar has the same stats, its effects
are the same, and only conditions on the year can tell the difference.

* `World.shift`: a world as another calendar counts its years.
* `Condition.Timeless`, `allHold_shift`: conditions that do not ask for the year.
* `World.schedule_shift`: the queue.
* `World.years`: all years that stand in a world.
-/

namespace Annals

/-! ## Worlds -/

/-- A trigger as another calendar counts its years. -/
def Trigger.shift (k : Int) (t : Trigger) : Trigger :=
  { t with due := t.due.shift k, scheduledIn := t.scheduledIn.shift k }

/-- The years that stand in a trigger. -/
def Trigger.years (t : Trigger) : List Year := [t.due, t.scheduledIn]

namespace World

/-- A world as another calendar counts its years. -/
def shift (k : Int) (w : World) : World :=
  { w with year := w.year.shift k, queue := w.queue.map (Trigger.shift k) }

/-- The years that stand in a world. -/
def years (w : World) : List Year := w.year :: w.queue.flatMap Trigger.years

theorem mem_years_of_mem_queue {w : World} {t : Trigger} (ht : t ∈ w.queue) {y : Year}
    (hy : y ∈ t.years) : y ∈ w.years :=
  List.mem_cons_of_mem _ (List.mem_flatMap.2 ⟨t, ht, hy⟩)

variable (k : Int) (w : World)

@[simp] theorem year_shift : (w.shift k).year = w.year.shift k := rfl

@[simp] theorem stat?_shift (side : Side) (owner stat : String) :
    (w.shift k).stat? side owner stat = w.stat? side owner stat := by
  cases side <;> rfl

theorem setStat_shift (side : Side) (owner stat : String) (value : Stat) :
    (w.shift k).setStat side owner stat value = (w.setStat side owner stat value).shift k := by
  cases side <;> rfl

theorem beginning_shift (year : Year) : beginning (year.shift k) = (beginning year).shift k := by
  have hsettle : ∀ (side : Side) (owners : List (String × List (String × Int64))) (w : World),
      (w.shift k).settle side owners = (w.settle side owners).shift k := by
    intro side owners w
    unfold settle
    refine List.foldl_hom (shift k) fun w owner => ?_
    exact List.foldl_hom (shift k) fun w stat => setStat_shift k w side owner.1 stat.1 _
  have hblank : blank (year.shift k) = (blank year).shift k := rfl
  unfold beginning
  rw [hblank, hsettle, hsettle, setStat_shift]

/-- Nothing waits at the beginning. -/
theorem years_beginning (year : Year) : (beginning year).years = [year] := rfl

end World

/-! ## Effects -/

namespace Effect

theorem adjustStat_shift (k : Int) (target : Target) (stat : String) (amount : Int64)
    (w : World) : adjustStat target stat amount (w.shift k) =
      ((adjustStat target stat amount w).1.shift k, (adjustStat target stat amount w).2) := by
  unfold adjustStat
  rw [World.stat?_shift]
  cases w.stat? target.side target.name stat with
  | none => exact Prod.ext (World.setStat_shift ..) rfl
  | some value =>
    cases value with
    | number n => exact Prod.ext (World.setStat_shift ..) rfl
    | text s => rfl

theorem apply_shift (k : Int) (w : World) (e : Effect) :
    apply (w.shift k) e = ((apply w e).1.shift k, (apply w e).2) := by
  cases e with
  | adjust target stat amount => exact adjustStat_shift k target stat amount w
  | appoint faction leader => rfl
  | unknown kind => rfl

/-- Effects are the same in another calendar. -/
theorem applyAll_shift (k : Int) (w : World) (es : List Effect) :
    applyAll (w.shift k) es = ((applyAll w es).1.shift k, (applyAll w es).2) := by
  induction es generalizing w with
  | nil => rfl
  | cons e es ih =>
    unfold applyAll
    rw [apply_shift]
    dsimp only
    rw [ih]

end Effect

/-! ## Conditions -/

namespace Condition

/-- The condition does not ask for the year. -/
def Timeless : Condition → Prop
  | .year _ _ => False
  | .stat _ | .named _ | .unknown _ => True

instance : (c : Condition) → Decidable c.Timeless
  | .year _ _ => inferInstanceAs (Decidable False)
  | .stat _ | .named _ | .unknown _ => inferInstanceAs (Decidable True)

theorem holds_shift {c : Condition} (h : c.Timeless) (k : Int) (w : World) :
    holds (w.shift k) c = holds w c := by
  have htest : ∀ test : StatTest, test.holds (w.shift k) = test.holds w := by
    intro test
    unfold StatTest.holds
    rw [World.stat?_shift]
  cases c with
  | year comparison value => exact h.elim
  | stat test => exact htest test
  | named name => simp only [holds, htest]
  | unknown kind => rfl

/-- Conditions that do not ask for the year hold in either calendar or in none. -/
theorem allHold_shift {cs : List Condition} (h : ∀ c ∈ cs, c.Timeless) (k : Int) (w : World) :
    allHold (w.shift k) cs = allHold w cs := by
  unfold allHold
  rw [Bool.eq_iff_iff, List.all_eq_true, List.all_eq_true]
  exact forall₂_congr fun c hc => by rw [holds_shift (h c hc) k w]

end Condition

/-! ## The queue -/

namespace World

variable {k : Int} {w : World}

/-- Queuing a trigger that is not set for a past year. -/
theorem schedule_shift {t : Trigger} (h : w.year ≤ t.due) (h' : w.year.shift k ≤ t.due.shift k) :
    (w.shift k).schedule (t.shift k) = (w.schedule t).shift k := by
  have hlate : ¬ t.due < w.year := Int32.not_lt.2 h
  have hlate' : ¬ (t.shift k).due < (w.shift k).year := Int32.not_lt.2 h'
  unfold schedule
  rw [if_neg hlate, if_neg hlate']
  unfold shift
  rw [List.map_append]
  rfl

end World

end Annals
