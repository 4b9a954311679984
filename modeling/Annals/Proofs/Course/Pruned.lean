import Annals.Proofs.Catalog.Pruned
import Annals.Proofs.Course.Replay
/-!
# Years without dead events

A dead event never fires: no scan picks it, no other event sets it off, and no trigger names it. So
a year goes on over a catalog without its dead events as it does with them, draw by draw.

* `World.Clear`: no waiting trigger names one of some ids.
* `Rules.fire_pruned`, `Rules.scan_pruned`: chains and scans.
* `Rules.passYear_pruned`: years, from a clear world.
* `Rules.clear_passYear`: a year leaves a clear world.
-/

namespace Annals

/-- No waiting trigger names an event with one of some ids. -/
def World.Clear (ids : List String) (w : World) : Prop := ∀ t ∈ w.queue, t.event ∉ ids

namespace Passage

variable {σ : Type}

/-- An idle stretch in front makes no difference. -/
theorem quiet_andThen (world : World) (dice : σ) (next : World → σ → Passage σ) :
    (quiet world dice).andThen next = next world dice := by
  rw [andThen_of_none rfl]
  simp [quiet]

end Passage

namespace Rules

variable {σ : Type} [Dice σ] {rules : Rules} {ids : List String} {c' : Catalog}

/-- The rules over another catalog. -/
def withCatalog (rules : Rules) (catalog : Catalog) : Rules := { rules with catalog }

section Pruned

variable (hdead : rules.catalog.Dead ids)
  (hpruned : Catalog.Pruned ids rules.catalog.categories c'.categories)

include hdead hpruned

/-! ## Chains -/

omit hdead in
/-- A follow-up that is not dead goes the same way when the links behind it do. -/
theorem follow_pruned {fire? fire?' : Option (Definition → Origin → World → σ → Passage σ)}
    (hfire : Option.Rel (fun fire fire' => ∀ d ∈ rules.catalog.events, d.id ∉ ids →
      fire d = fire' d) fire? fire?')
    (parent : Definition) (category : String) {f : FollowUp} (hf : f.event ∉ ids) :
    follow rules fire? parent category f =
      follow (rules.withCatalog c') fire?' parent category f := by
  refine follow_congr (hpruned.find?_eq hf) ?_ parent
  cases hfire with
  | none => exact .none
  | some hagree =>
    refine .some fun next hnext => hagree next (mem_events_of_find? hnext) ?_
    have hid : next.id = f.event := by simpa using List.find?_some hnext
    exact hid ▸ hf

/-- An event that is not dead is struck alike by links that agree behind it. -/
theorem strike_pruned {fire? fire?' : Option (Definition → Origin → World → σ → Passage σ)}
    (hfire : Option.Rel (fun fire fire' => ∀ d ∈ rules.catalog.events, d.id ∉ ids →
      fire d = fire' d) fire? fire?')
    (category : String) {d : Definition} (hd : d ∈ rules.catalog.events) (hlive : d.id ∉ ids) :
    strike rules fire? category d = strike (rules.withCatalog c') fire?' category d := by
  exact strike_congr fun f hf =>
    follow_pruned hpruned hfire d category (hdead.unnamed d hd hlive f hf)

/-- A chain that begins with an event that is not dead never meets a dead one. -/
theorem fire_pruned (category : String) (depth : Nat) {d : Definition}
    (hd : d ∈ rules.catalog.events) (hlive : d.id ∉ ids) :
    fire (σ := σ) rules category depth d = fire (rules.withCatalog c') category depth d := by
  induction depth generalizing d with
  | zero => exact strike_pruned hdead hpruned .none category hd hlive
  | succ depth ih =>
    exact strike_pruned hdead hpruned (.some fun e he hother => ih he hother) category hd hlive

/-! ## Moves of a year -/

theorem tryTrigger_pruned {t : Trigger} (ht : t.event ∉ ids) :
    tryTrigger (σ := σ) rules t = (rules.withCatalog c').tryTrigger t := by
  refine tryTrigger_congr (hpruned.find?_eq ht) fun d hnext => ?_
  have hid : d.id = t.event := by simpa using List.find?_some hnext
  exact fire_pruned hdead hpruned t.category _ (mem_events_of_find? hnext) (hid ▸ ht)

omit [Dice σ] hpruned in
/-- No scan may pick a dead event. -/
theorem eligible_others {k : Category} (hk : k ∈ rules.catalog.categories) (world : World) :
    eligible { k with events := Definition.others ids k.events } world = eligible k world := by
  unfold eligible Category.candidates Definition.others
  rw [List.filter_filter, List.filter_filter, List.filter_filter]
  refine List.filter_congr fun d hd => ?_
  by_cases hid : d.id ∈ ids
  · rcases hdead.barred d (List.mem_flatMap.2 ⟨k, hk, hd⟩) hid with hreserved | ⟨p, hp, hnever⟩
    · simp [hreserved]
    · simp [Condition.allHold_eq_false_of_never hp hnever world]
  · simp [hid]

/-- A scan ends alike whether the dead events of its category are there or not. -/
theorem scan_pruned {k : Category} (hk : k ∈ rules.catalog.categories) :
    scan (σ := σ) rules k =
      (rules.withCatalog c').scan { k with events := Definition.others ids k.events } := by
  have hlist : eligible { k with events := Definition.others ids k.events } = eligible k := by
    funext world
    exact eligible_others hdead hk world
  refine scan_congr rfl rfl hlist fun world d hd => ?_
  -- An event that may be picked is one of those that are left.
  have hleft := hd
  rw [← hlist] at hleft
  have hother := (List.mem_filter.1 (mem_eligible.1 hleft).1).2
  have hlive : d.id ∉ ids := by simpa using hother
  exact fire_pruned hdead hpruned k.name _ (mem_events_of_mem_eligible hk hd) hlive

/-- A category without events to pick is passed over as if it were not there. -/
theorem each_scan_pruned :
    Passage.each (scan (σ := σ) rules) rules.catalog.categories =
      Passage.each (rules.withCatalog c').scan c'.categories := by
  have hscan : ∀ k ∈ rules.catalog.categories, scan (σ := σ) rules k =
      (rules.withCatalog c').scan { k with events := Definition.others ids k.events } := fun k hk =>
    scan_pruned hdead hpruned hk
  generalize rules.catalog.categories = ks, c'.categories = ks' at hpruned hscan
  induction hpruned with
  | nil => rfl
  | keep k h ih =>
    obtain ⟨hfirst, hrest⟩ := List.forall_mem_cons.1 hscan
    funext world dice
    show (scan rules k world dice).andThen _ = _
    rw [hfirst, ih hrest]
    rfl
  | drop hnone h ih =>
    obtain ⟨hfirst, hrest⟩ := List.forall_mem_cons.1 hscan
    funext world dice
    show (scan rules _ world dice).andThen _ = _
    rw [hfirst, hnone, ih hrest]
    exact Passage.quiet_andThen world dice _

/-! ## Years -/

/-- A year over the smaller catalog is the same year. -/
theorem passYear_pruned {world : World} (hclear : world.Clear ids) (year : Year) (dice : σ) :
    (rules.withCatalog c').passYear year world dice = rules.passYear year world dice := by
  have hdue : ∀ t ∈ world.due year, t.event ∉ ids := fun t ht =>
    hclear t (List.mem_filter.1 ht).1
  refine (passYear_congr (fun t ht => ?_) ?_ dice).symm
  · exact tryTrigger_pruned hdead hpruned (hdue t ht)
  · exact each_scan_pruned hdead hpruned

omit [Dice σ] hdead hpruned in
/-- Queues without dead events stay so when every move keeps them so. -/
theorem composes_clear : Passage.Composes fun world (_ : σ) p =>
    world.Clear ids → p.world.Clear ids where
  quiet := fun _ _ _ h => h
  append := fun hp _ hq h => hq (hp h)

omit [Dice σ] in
/-- Over the smaller catalog every event that fires is alive, and so are its follow-ups. -/
theorem clear_law (category : String) :
    ChainLaw (rules.withCatalog c') category fun world (_ : σ) p =>
      world.Clear ids → p.world.Clear ids where
  toComposes := composes_clear
  struck := by
    intro d _ origin world dice h t ht
    exact h t ((Effect.queue_applyAll world d.effects) ▸ ht)
  queued := by
    intro d f hd hf _ world dice h t ht
    obtain ⟨hd, hother⟩ := hpruned.mem_events.1 hd
    rcases List.mem_append.1 ht with hold | hnew
    · exact h t hold
    · rw [List.mem_singleton.1 hnew]
      have hevent := hdead.unnamed d hd hother f hf
      split
      · exact hevent
      · exact hevent
  unknown := fun _ _ _ _ _ _ h => h

/-- A year queues no trigger for a dead event. -/
theorem clear_passYear {world : World} (hclear : world.Clear ids) (year : Year) (dice : σ) :
    (rules.passYear year world dice).world.Clear ids := by
  have hlaw := clear_law (σ := σ) hdead hpruned
  rw [← passYear_pruned hdead hpruned hclear]
  by_cases hlt : year < world.year
  · rw [passYear_of_lt hlt]
    exact hclear
  · refine passYear_law composes_clear hlt ?_ ?_ dice ?_
    · exact fun t _ => (hlaw t.category).tryTrigger fun _ _ _ _ h => h
    · exact fun k hk => (hlaw k.name).scan hk
    · exact fun t ht => hclear t (List.mem_filter.1 ht).1

end Pruned

end Rules

end Annals
