import Annals.Proofs.Course.Queue
/-!
# Years without faults

A loaded catalog has every follow-up of its events, so an event can only be missing when a trigger
of the first queue names it. When none does, no year finds an event missing, and no year queues a
trigger whose event is.

* `World.Resolves`: the waiting triggers name events of a catalog.
* `World.Filed`: the waiting triggers stand under categories of a catalog.
* `Rules.fault_passYear`: a year that does not lie in the past is gone through to its end.
* `Rules.fault_during`: so are years that never go back, one after the other.
-/

namespace Annals

/-! ## Queues that fit a catalog -/

namespace World

/-- Every waiting trigger names an event of the catalog. -/
def Resolves (w : World) (c : Catalog) : Prop := ∀ t ∈ w.queue, (c.find? t.event).isSome = true

/-- Every waiting trigger stands under a category of the catalog. -/
def Filed (w : World) (c : Catalog) : Prop := ∀ t ∈ w.queue, ∃ k ∈ c.categories, k.name = t.category

end World

namespace Rules

variable {σ : Type}

/-! ## The laws -/

/-- In a loaded catalog no move of a chain is a fault. -/
theorem faultless {rules : Rules} (hcat : rules.catalog.Loaded) (category : String) :
    ChainLaw rules category fun _ (_ : σ) p => p.fault = none where
  toComposes := .faultless
  struck := fun _ _ _ _ => rfl
  queued := fun _ _ _ _ _ => rfl
  unknown := by
    intro d f hd hf hfind
    have hsome := hcat.find?_followUp hd hf
    rw [hfind] at hsome
    cases hsome

/-- All events of a chain are reported under its category. -/
theorem sameCategory (rules : Rules) (category : String) :
    ChainLaw rules category fun _ (_ : σ) p => ∀ o ∈ p.fired, o.category = category where
  toComposes := .forall_fired _
  struck := by
    intro d _ origin world dice o ho
    rw [List.mem_singleton.1 ho]
    rfl
  queued := fun _ _ _ _ _ => List.forall_mem_nil _
  unknown := fun _ _ _ _ _ _ => List.forall_mem_nil _

variable [Dice σ] {rules : Rules} {year : Year} {world : World}

/-! ## One year -/

/-- A year that does not lie in the past is gone through to its end. -/
theorem fault_passYear (hcat : rules.catalog.Loaded) (hqueue : world.Resolves rules.catalog)
    (hyear : world.year ≤ year) (dice : σ) : (rules.passYear year world dice).fault = none := by
  have hlt : ¬ year < world.year := Int32.not_lt.2 hyear
  -- The due triggers were in the queue before the year, so the queue of that time is enough.
  have htry : ∀ t ∈ world.due year, ∀ w (dice : σ), (rules.tryTrigger t w dice).fault = none := by
    intro t ht
    refine (faultless hcat t.category).tryTrigger fun hfind => ?_
    have hsome := hqueue t (List.mem_filter.1 ht).1
    rw [hfind] at hsome
    cases hsome
  exact passYear_law .faultless hlt htry (fun c hc => (faultless hcat c.name).scan hc) dice

/-- A year that is not gone through to its end lies in the past, and it changes nothing. -/
theorem passYear_of_fault (hcat : rules.catalog.Loaded) (hqueue : world.Resolves rules.catalog)
    {dice : σ} {fault : CourseFault} (h : (rules.passYear year world dice).fault = some fault) :
    rules.passYear year world dice = .failed (.yearRegression world.year year) world dice := by
  by_cases hlt : year < world.year
  · exact passYear_of_lt hlt dice
  · rw [fault_passYear hcat hqueue (Int32.not_lt.1 hlt) dice] at h
    cases h

/-- What a report leaves names events of the catalog. -/
theorem isSome_of_mem_queuedBy (hcat : rules.catalog.Loaded) {o : Occurrence} {t : Trigger}
    (ht : t ∈ rules.queuedBy year o) : (rules.catalog.find? t.event).isSome = true := by
  unfold queuedBy at ht
  split at ht
  case h_1 d hfind =>
    obtain ⟨f, hf, rfl⟩ := List.mem_map.1 ht
    exact hcat.find?_followUp (mem_events_of_find? hfind) (List.mem_filter.1 hf).1
  case h_2 => cases ht

theorem category_of_mem_queuedBy {o : Occurrence} {t : Trigger}
    (ht : t ∈ rules.queuedBy year o) : t.category = o.category := by
  unfold queuedBy at ht
  split at ht
  · obtain ⟨f, hf, rfl⟩ := List.mem_map.1 ht
    rfl
  · cases ht

/-- A trigger that waits after a year waited before it, or an event of the year left it. -/
theorem mem_queue_passYear (hcat : rules.catalog.Loaded) {dice : σ} {t : Trigger}
    (h : (rules.passYear year world dice).fault = none)
    (ht : t ∈ (rules.passYear year world dice).world.queue) :
    t ∈ world.queue ∨ ∃ o ∈ (rules.passYear year world dice).fired, t ∈ rules.queuedBy year o := by
  obtain ⟨added, hqueue, hadded⟩ := queue_passYear hcat h
  rw [hqueue] at ht
  rcases List.mem_append.1 ht with hkept | hnew
  · exact .inl (List.mem_filter.1 hkept).1
  · exact .inr (List.mem_flatMap.1 (hadded.mem_iff.1 hnew))

theorem resolves_passYear (hcat : rules.catalog.Loaded) (hqueue : world.Resolves rules.catalog)
    {dice : σ} (h : (rules.passYear year world dice).fault = none) :
    (rules.passYear year world dice).world.Resolves rules.catalog := by
  intro t ht
  rcases mem_queue_passYear hcat h ht with hold | ⟨o, -, hnew⟩
  · exact hqueue t hold
  · exact isSome_of_mem_queuedBy hcat hnew

/-- A year reports its events under categories of the catalog and of the due triggers. -/
theorem category_of_mem_fired (hqueue : world.Filed rules.catalog) (hyear : world.year ≤ year)
    (dice : σ) : ∀ o ∈ (rules.passYear year world dice).fired,
      ∃ k ∈ rules.catalog.categories, k.name = o.category := by
  refine forall_fired_passYear (Int32.not_lt.2 hyear) ?_ ?_ dice
  · -- A due trigger was in the queue, where its category was one of the catalog.
    intro t ht w dice o ho
    obtain ⟨k, hk, hname⟩ := hqueue t (List.mem_filter.1 ht).1
    have hsame := (sameCategory rules t.category).tryTrigger
      (fun _ _ _ _ => List.forall_mem_nil _) w dice o ho
    exact ⟨k, hk, hname.trans hsame.symm⟩
  · intro c hc w dice o ho
    have hsame := (sameCategory rules c.name).scan hc w dice o ho
    exact ⟨c, hc, hsame.symm⟩

theorem filed_passYear (hcat : rules.catalog.Loaded) (hqueue : world.Filed rules.catalog)
    (hyear : world.year ≤ year) {dice : σ} (h : (rules.passYear year world dice).fault = none) :
    (rules.passYear year world dice).world.Filed rules.catalog := by
  intro t ht
  rcases mem_queue_passYear hcat h ht with hold | ⟨o, ho, hnew⟩
  · exact hqueue t hold
  · obtain ⟨k, hk, hname⟩ := category_of_mem_fired hqueue hyear dice o ho
    exact ⟨k, hk, hname.trans (category_of_mem_queuedBy hnew).symm⟩

/-! ## Years that never go back -/

section Sequence

variable {years : Nat → Year}

/-- Before each year the queue fits the catalog, and the world is not ahead of the year. -/
theorem resolves_before (hcat : rules.catalog.Loaded) (hqueue : world.Resolves rules.catalog)
    (hstart : world.year ≤ years 0) (hmono : ∀ n, years n ≤ years (n + 1)) (dice : σ) (n : Nat) :
    (rules.before years world dice n).1.Resolves rules.catalog ∧
      (rules.before years world dice n).1.year ≤ years n := by
  induction n with
  | zero => exact ⟨hqueue, hstart⟩
  | succ n ih =>
    -- A year without a fault leaves its own year behind, and the next one is not earlier.
    obtain ⟨hresolves, hyear⟩ := ih
    have hok := fault_passYear hcat hresolves hyear (rules.before years world dice n).2
    have hnow : (rules.during years world dice n).world.year = years n :=
      year_passYear rules (not_lt_of_passYear hok) _
    refine ⟨resolves_passYear hcat hresolves hok, ?_⟩
    rw [before_succ, hnow]
    exact hmono n

/-- No year of the sequence has a fault. -/
theorem fault_during (hcat : rules.catalog.Loaded) (hqueue : world.Resolves rules.catalog)
    (hstart : world.year ≤ years 0) (hmono : ∀ n, years n ≤ years (n + 1)) (dice : σ) (n : Nat) :
    (rules.during years world dice n).fault = none := by
  obtain ⟨hresolves, hyear⟩ := resolves_before hcat hqueue hstart hmono dice n
  exact fault_passYear hcat hresolves hyear _

theorem filed_before (hcat : rules.catalog.Loaded) (hqueue : world.Resolves rules.catalog)
    (hfiled : world.Filed rules.catalog) (hstart : world.year ≤ years 0)
    (hmono : ∀ n, years n ≤ years (n + 1)) (dice : σ) (n : Nat) :
    (rules.before years world dice n).1.Filed rules.catalog := by
  induction n with
  | zero => exact hfiled
  | succ n ih =>
    obtain ⟨-, hyear⟩ := resolves_before hcat hqueue hstart hmono dice n
    exact filed_passYear hcat ih hyear (fault_during hcat hqueue hstart hmono dice n)

end Sequence

end Rules

end Annals
