import Annals.Proofs.Course.Years
import Annals.Proofs.World.Absent
/-!
# Years that do not see absent stats

Two worlds that differ in absent stats against zeros only go through the same years: the same events
fire in the same order, the same draws are made, the same faults come up, and the worlds that are
left differ in absent stats against zeros only.

* `Passage.Alike`: two stretches that cannot be told apart.
* `Passage.Blind`: a move that ends alike in equivalent worlds; moves in a row are blind when each
  of them is.
* `Rules.blind_fire`, `Rules.blind_passYear`: chains and years are blind.
* `Rules.absent_eq_zero`: the same for years one after the other.
-/

namespace Annals

/-! ## Pairs of stretches -/

namespace Passage

variable {σ α : Type}

/-- Two stretches with the same report, the same fault and the same dice, which leave worlds that
differ in absent stats against zeros only. -/
structure Alike (p q : Passage σ) : Prop where
  fired : p.fired = q.fired
  fault : p.fault = q.fault
  dice : p.dice = q.dice
  world : p.world.ZeroEquivalent q.world

/-- A move that ends alike in worlds that differ in absent stats against zeros only. -/
def Blind (step : World → σ → Passage σ) : Prop :=
  ∀ ⦃w v : World⦄ (dice : σ), w.ZeroEquivalent v → Alike (step w dice) (step v dice)

theorem blind_quiet : Blind (quiet (σ := σ)) := fun _ _ _ h => ⟨rfl, rfl, rfl, h⟩

theorem blind_failed (fault : CourseFault) : Blind (failed (σ := σ) fault) :=
  fun _ _ _ h => ⟨rfl, rfl, rfl, h⟩

/-- Two stretches that are alike stay so when a blind move follows. -/
theorem Alike.andThen {p q : Passage σ} {next : World → σ → Passage σ} (h : Alike p q)
    (hnext : Blind next) : Alike (p.andThen next) (q.andThen next) := by
  cases hfault : p.fault with
  | some fault =>
    have hfault' : q.fault = some fault := h.fault.symm.trans hfault
    rw [andThen_of_fault hfault, andThen_of_fault hfault']
    exact h
  | none =>
    have hfault' : q.fault = none := h.fault.symm.trans hfault
    rw [andThen_of_none hfault, andThen_of_none hfault']
    have hrest := hnext p.dice h.world
    rw [← h.dice]
    refine ⟨?_, hrest.fault, hrest.dice, hrest.world⟩
    show p.fired ++ _ = q.fired ++ _
    rw [h.fired, hrest.fired]

/-- Moves in a row are blind when each of them is. -/
theorem blind_each {step : α → World → σ → Passage σ} (hstep : ∀ item, Blind (step item))
    (items : List α) : Blind (Passage.each step items) := by
  induction items with
  | nil => exact blind_quiet
  | cons item rest ih =>
    intro w v dice h
    exact (hstep item dice h).andThen ih

end Passage

namespace Rules

open Passage (Blind Alike)

variable {σ : Type} [Dice σ]

/-! ## Moves -/

omit [Dice σ] in
theorem blind_withEvent (rules : Rules) {next : Definition → World → σ → Passage σ}
    (hnext : ∀ d, Blind (next d)) (id referencedBy : String) :
    Blind (rules.withEvent id referencedBy next) := by
  intro w v dice h
  unfold withEvent
  cases rules.catalog.find? id with
  | none => exact Passage.blind_failed _ dice h
  | some d => exact hnext d dice h

/-- A follow-up is queued or rolled for without a look at stats. -/
theorem blind_follow {rules : Rules}
    {fire? : Option (Definition → Origin → World → σ → Passage σ)}
    (hfire : ∀ fire, fire? = some fire → ∀ d origin, Blind (fire d origin))
    (parent : Definition) (category : String) (f : FollowUp) :
    Blind (follow rules fire? parent category f) := by
  intro w v dice h
  unfold follow
  split
  case isTrue hdelay =>
    rw [h.year]
    exact Passage.blind_quiet dice (h.schedule _)
  case isFalse hdelay =>
    cases hsome : fire? with
    | none => exact Passage.blind_quiet dice h
    | some fire =>
      cases hroll : (Dice.roll dice).1.reaches f.chance with
      | true => simpa [hroll] using Passage.blind_quiet (Dice.roll dice).2 h
      | false =>
        have hnext := blind_withEvent rules
          (fun d => hfire fire hsome d (.followUp parent.id)) f.event parent.id
        simpa [hroll] using hnext (Dice.roll dice).2 h

/-- The report of an event shows no stats, and its effects keep worlds equivalent. -/
theorem blind_strike {rules : Rules}
    {fire? : Option (Definition → Origin → World → σ → Passage σ)}
    (hfire : ∀ fire, fire? = some fire → ∀ d origin, Blind (fire d origin))
    (category : String) (d : Definition) (origin : Origin) :
    Blind (strike rules fire? category d origin) := by
  intro w v dice h
  have hstruck : Alike (struck category d origin w dice) (struck category d origin v dice) := by
    have hworld := h.applyAll d.effects
    refine ⟨?_, rfl, rfl, hworld⟩
    show [Occurrence.ofDefinition d category (Effect.applyAll w d.effects).1.year origin] = _
    rw [hworld.year]
    rfl
  rw [strike_eq, strike_eq]
  exact hstruck.andThen
    (Passage.blind_each (blind_follow hfire d category) d.followUps)

/-- A chain is blind at every depth. -/
theorem blind_fire (rules : Rules) (category : String) (depth : Nat) :
    ∀ d origin, Blind (σ := σ) (fire rules category depth d origin) := by
  induction depth with
  | zero =>
    refine blind_strike ?_ category
    intro fire hfire
    cases hfire
  | succ depth ih =>
    refine blind_strike ?_ category
    intro fire hfire
    cases hfire
    exact ih

theorem blind_tryTrigger (rules : Rules) (t : Trigger) :
    Blind (σ := σ) (rules.tryTrigger t) := by
  intro w v dice h
  unfold tryTrigger
  cases hroll : (Dice.roll dice).1.reaches t.chance with
  | true => simpa [hroll] using Passage.blind_quiet (Dice.roll dice).2 h
  | false =>
    have hnext := blind_withEvent rules
      (fun d => blind_fire (σ := σ) rules t.category rules.settings.maxDepth.toNat d
        (.delayed t.scheduledBy t.scheduledIn)) t.event t.scheduledBy
    simpa [hroll, fireRoot] using hnext (Dice.roll dice).2 h

/-- A category has the same eligible events in equivalent worlds, so the same one is picked. -/
theorem blind_scan (rules : Rules) (c : Category) : Blind (σ := σ) (rules.scan c) := by
  intro w v dice h
  have heligible : eligible c w = eligible c v := by
    unfold eligible
    exact List.filter_congr fun d _ => h.allHold d.conditions
  unfold scan
  rw [heligible]
  cases eligible c v with
  | nil => exact Passage.blind_quiet dice h
  | cons first rest =>
    cases hquiet : (rules.staysQuiet dice).1 with
    | true => simpa [hquiet] using Passage.blind_quiet (rules.staysQuiet dice).2 h
    | false =>
      have hfire := blind_fire (σ := σ) rules c.name rules.settings.maxDepth.toNat
        ((first :: rest).get (Dice.long rest.length (rules.staysQuiet dice).2).1) .scan
      simpa [hquiet, fireRoot] using
        hfire (Dice.long rest.length (rules.staysQuiet dice).2).2 h

/-! ## Years -/

theorem blind_passYear (rules : Rules) (year : Year) : Blind (σ := σ) (rules.passYear year) := by
  intro w v dice h
  by_cases hlt : year < w.year
  · have hlt' : year < v.year := by
      rw [← h.year]
      exact hlt
    rw [passYear_of_lt hlt, passYear_of_lt hlt', h.year]
    exact Passage.blind_failed _ dice h
  · have hlt' : ¬ year < v.year := by
      rw [← h.year]
      exact hlt
    have hentered : (w.entered year).ZeroEquivalent (v.entered year) := by
      refine ⟨rfl, ?_, h.stats⟩
      show w.queue.filter _ = v.queue.filter _
      rw [h.queue]
    have hdue : w.due year = v.due year := by
      unfold World.due
      rw [h.queue]
    rw [passYear_eq hlt, passYear_eq hlt', hdue]
    have hdrain := Passage.blind_each (blind_tryTrigger (σ := σ) rules) (v.due year)
    exact (hdrain dice hentered).andThen
      (Passage.blind_each (blind_scan rules) rules.catalog.categories)

/-- An absent stat cannot be told from a zero. From worlds that differ in absent stats against zeros
only, a year fires the same events in the same order or ends in the same fault, leaves the same
dice, and leaves worlds that still differ in nothing else; so does every year of a sequence. -/
theorem absent_eq_zero (rules : Rules) {w v : World} (h : w.ZeroEquivalent v) (dice : σ) :
    (∀ year, Alike (rules.passYear year w dice) (rules.passYear year v dice)) ∧
    ∀ years n, (rules.before years w dice n).1.ZeroEquivalent (rules.before years v dice n).1 ∧
      (rules.before years w dice n).2 = (rules.before years v dice n).2 ∧
      Alike (rules.during years w dice n) (rules.during years v dice n) := by
  refine ⟨fun year => blind_passYear rules year dice h, fun years n => ?_⟩
  -- What is the same before a year is the same after it.
  have hyear : ∀ k, (rules.before years w dice k).1.ZeroEquivalent
        (rules.before years v dice k).1 →
      (rules.before years w dice k).2 = (rules.before years v dice k).2 →
      Alike (rules.during years w dice k) (rules.during years v dice k) := by
    intro k hworld hdice
    unfold during
    rw [hdice]
    exact blind_passYear rules (years k) _ hworld
  have hbefore : (rules.before years w dice n).1.ZeroEquivalent
        (rules.before years v dice n).1 ∧
      (rules.before years w dice n).2 = (rules.before years v dice n).2 := by
    induction n with
    | zero => exact ⟨h, rfl⟩
    | succ n ih =>
      have hlast := hyear n ih.1 ih.2
      exact ⟨hlast.world, hlast.dice⟩
  exact ⟨hbefore.1, hbefore.2, hyear n hbefore.1 hbefore.2⟩

theorem absent_eq_zero_tolling :
    belfry.ZeroEquivalent (belfry.setStat .region "Coast" "trade" (.number 0)) ∧
    belfry ≠ belfry.setStat .region "Coast" "trade" (.number 0) ∧
    Alike (tolling.passYear 1000 belfry still)
      (tolling.passYear 1000 (belfry.setStat .region "Coast" "trade" (.number 0)) still) ∧
    ∀ n, Alike (tolling.during millennium belfry still n)
      (tolling.during millennium (belfry.setStat .region "Coast" "trade" (.number 0)) still n) := by
  have hequivalent := World.ZeroEquivalent.setStat_zero
    (show belfry.stat? .region "Coast" "trade" = none from rfl)
  obtain ⟨hyear, hyears⟩ := absent_eq_zero tolling hequivalent still
  exact ⟨hequivalent, by decide, hyear 1000, fun n => (hyears millennium n).2.2⟩

end Rules

end Annals
