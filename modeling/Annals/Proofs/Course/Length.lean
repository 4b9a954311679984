import Annals.Proofs.Course.Agenda
import Annals.Proofs.Course.Queue
import Mathlib.Algebra.Ring.GeomSum
import Mathlib.Data.List.MinMax
/-!
# How long a year can be

Follow-ups may lead in circles, and triggers join the queue while the year goes on. Still the tasks
of a year come to an end: an event puts tasks in front of the others, but only those above the
greatest depth can fire, and what joins the queue is left there.

* `Catalog.most`: the largest count among the events of a catalog.
* `Rules.allowance`: the greatest number of events in a chain that may go some steps deep.
* `Agenda.Bounded`: the events that have fired, and those for which there is still an allowance.
* `Agenda.Steps.attempts`, `Agenda.Steps.queue`: what is queued is not tried in the same year.
* `Rules.ends_within_bound`: how many tasks and events there can be in a year.
-/

namespace Annals

/-! ## Counts in a catalog -/

namespace Catalog

/-- The largest count among the events of a catalog. -/
def most (catalog : Catalog) (count : Definition → Nat) : Nat :=
  (catalog.events.map count).foldr max 0

theorem le_most {catalog : Catalog} {d : Definition} (h : d ∈ catalog.events)
    (count : Definition → Nat) : count d ≤ catalog.most count :=
  List.le_max_of_le' 0 (List.mem_map_of_mem h) (Nat.le_refl _)

end Catalog

/-! ## Allowances -/

namespace Rules

/-- The greatest number of events in a chain that may go `left` steps deep. -/
def allowance (rules : Rules) (left : Nat) : Nat :=
  ∑ i ∈ Finset.range (left + 1), rules.catalog.most (fun d => d.atOnce.length) ^ i

theorem allowance_succ (rules : Rules) (left : Nat) :
    rules.allowance (left + 1) =
      rules.catalog.most (fun d => d.atOnce.length) * rules.allowance left + 1 := geom_sum_succ

theorem one_le_allowance (rules : Rules) (left : Nat) : 1 ≤ rules.allowance left := by
  cases left with
  | zero => simp [allowance]
  | succ left =>
    rw [allowance_succ]
    exact Nat.le_add_left ..

end Rules

/-- The greatest number of events that a task can still fire. -/
def Task.allowance (rules : Rules) : Task → Nat
  | .attempt _ => rules.allowance rules.settings.maxDepth.toNat
  | .scan _ => rules.allowance rules.settings.maxDepth.toNat
  | .follow _ _ depth f =>
    if f.delay = 0 ∧ depth < rules.settings.maxDepth.toNat then
      rules.allowance (rules.settings.maxDepth.toNat - (depth + 1))
    else 0

/-- A trigger may fire a whole chain. -/
theorem Task.allowance_attempt (rules : Rules) (t : Trigger) :
    (Task.attempt t).allowance rules =
      rules.allowance (rules.settings.maxDepth.toNat - t.call.depth) := by
  show rules.allowance _ = rules.allowance (_ - 0)
  rw [Nat.sub_zero]

theorem Task.allowance_scan (rules : Rules) (c : Category) :
    (Task.scan c).allowance rules = rules.allowance (rules.settings.maxDepth.toNat - 0) := by
  show rules.allowance _ = _
  rw [Nat.sub_zero]

theorem Task.allowance_follow (rules : Rules) (parent : Definition) (category : String)
    (depth : Nat) (f : FollowUp) :
    (Task.follow parent category depth f).allowance rules =
      if f.delay = 0 ∧ depth < rules.settings.maxDepth.toNat then
        rules.allowance (rules.settings.maxDepth.toNat - (depth + 1))
      else 0 := rfl

namespace Rules

theorem sum_allowance_follow (rules : Rules) (parent : Definition) (category : String)
    (depth : Nat) (fs : List FollowUp) :
    ((fs.map (Task.follow parent category depth)).map (·.allowance rules)).sum =
      if depth < rules.settings.maxDepth.toNat then
        (fs.filter fun f => f.delay = 0).length *
          rules.allowance (rules.settings.maxDepth.toNat - (depth + 1))
      else 0 := by
  induction fs with
  | nil => simp
  | cons f fs ih =>
    rw [List.map_cons, List.map_cons, List.sum_cons, ih, Task.allowance_follow]
    by_cases hdepth : depth < rules.settings.maxDepth.toNat
    · by_cases hdelay : f.delay = 0
      · simp [hdelay, hdepth, Nat.add_mul, Nat.add_comm]
      · simp [hdelay, hdepth]
    · simp [hdepth]

/-- An event and its follow-ups keep within the allowance of its chain. -/
theorem sum_allowance_followUps_lt (rules : Rules) {d : Definition} (hd : d ∈ rules.catalog.events)
    (category : String) (depth : Nat) :
    ((d.followUps.map (Task.follow d category depth)).map (·.allowance rules)).sum + 1 ≤
      rules.allowance (rules.settings.maxDepth.toNat - depth) := by
  rw [sum_allowance_follow]
  by_cases hdepth : depth < rules.settings.maxDepth.toNat
  · have hleft : rules.settings.maxDepth.toNat - depth =
        rules.settings.maxDepth.toNat - (depth + 1) + 1 := by omega
    rw [if_pos hdepth, hleft, allowance_succ]
    have hmost : (d.followUps.filter fun f => f.delay = 0).length ≤
        rules.catalog.most (fun d => d.atOnce.length) :=
      Catalog.le_most hd fun d => d.atOnce.length
    exact Nat.succ_le_succ (Nat.mul_le_mul_right _ hmost)
  · rw [if_neg hdepth, Nat.zero_add]
    exact rules.one_le_allowance _

end Rules

/-! ## Events -/

namespace Agenda

variable {σ : Type}

/-- No more events have fired, or can still fire from the tasks and from a share that is set aside,
than `limit`. The tasks are about categories of the catalog, and its events have fired. -/
structure Bounded (rules : Rules) (limit share : Nat) (a : Agenda σ) : Prop where
  length_le : a.fired.length + share + (a.tasks.map (·.allowance rules)).sum ≤ limit
  listed : ∀ c, Task.scan c ∈ a.tasks → c ∈ rules.catalog.categories
  known : ∀ f ∈ a.fired, f.event ∈ rules.catalog.events

namespace Bounded

variable {rules : Rules} {limit share : Nat} {a : Agenda σ}

/-- Only the tasks and what has fired matter. -/
theorem congr {b : Agenda σ} (h : Bounded rules limit share a) (htasks : b.tasks = a.tasks)
    (hfired : b.fired = a.fired) : Bounded rules limit share b where
  length_le := by
    rw [htasks, hfired]
    exact h.length_le
  listed := by
    rw [htasks]
    exact h.listed
  known := by
    rw [hfired]
    exact h.known

/-- A share need not be used. -/
theorem waste (h : Bounded rules limit share a) : Bounded rules limit 0 a where
  length_le := by
    have hlength := h.length_le
    omega
  listed := h.listed
  known := h.known

/-- An event that fires takes its share and leaves its follow-ups the rest of it. -/
theorem strike {d : Definition} (hd : d ∈ rules.catalog.events) {depth : Nat}
    (h : Bounded rules limit (rules.allowance (rules.settings.maxDepth.toNat - depth)) a)
    (category : String) (origin : Origin) :
    Bounded rules limit 0 (a.strike category depth d origin) := by
  refine ⟨?_, fun c hc => ?_, fun f hf => ?_⟩
  · have hshare := rules.sum_allowance_followUps_lt hd category depth
    have hlength := h.length_le
    show (a.fired ++ [_]).length + 0 +
      ((d.followUps.map (Task.follow d category depth) ++ a.tasks).map
        (·.allowance rules)).sum ≤ limit
    rw [List.map_append, List.sum_append_nat, List.length_append, List.length_singleton]
    omega
  · rcases List.mem_append.1 hc with hc | hc
    · obtain ⟨f, -, heq⟩ := List.mem_map.1 hc
      cases heq
    · exact h.listed c hc
  · rcases List.mem_append.1 hf with hf | hf
    · exact h.known f hf
    · cases List.mem_singleton.1 hf
      exact hd

variable [Dice σ]

theorem answer {call : Call}
    (h : Bounded rules limit (rules.allowance (rules.settings.maxDepth.toNat - call.depth)) a) :
    Bounded rules limit 0 (a.answer rules call) := by
  have hview := answered rules call a
  generalize a.answer rules call = b at hview ⊢
  cases hview with
  | missed hroll => exact h.waste.congr rfl rfl
  | unknown hroll hfind => exact h.waste.congr rfl rfl
  | fired d hroll hfind =>
    refine strike (Rules.mem_events_of_find? hfind) ?_ _ _
    exact h.congr rfl rfl

/-- Each task keeps within its allowance. -/
theorem perform {task : Task} (h : Bounded rules limit (task.allowance rules) a)
    (htask : ∀ c, task = .scan c → c ∈ rules.catalog.categories) :
    Bounded rules limit 0 (a.perform rules task) := by
  have hview := performed rules a task
  generalize a.perform rules task = b at hview ⊢
  cases hview with
  | attempted t =>
    rw [Task.allowance_attempt] at h
    exact h.answer
  | barren hnone => exact h.waste
  | silent hsome hquiet => exact h.waste.congr rfl rfl
  | @picked c d hmem hquiet =>
    rw [Task.allowance_scan] at h
    refine strike (Rules.mem_events_of_mem_eligible (htask c rfl) hmem) ?_ _ _
    exact h.congr rfl rfl
  | queued hdelay => exact h.waste.congr rfl rfl
  | dropped hdelay hdeep => exact h.waste
  | @called _ _ _ f hdelay hdepth =>
    have hatOnce : f.delay = 0 :=
      Decidable.byContradiction fun hne => hdelay (UInt32.pos_iff_ne_zero.2 hne)
    rw [Task.allowance_follow, if_pos ⟨hatOnce, hdepth⟩] at h
    exact h.answer

theorem steps {n : Nat} {b : Agenda σ} (hsteps : Steps rules n a b)
    (h : Bounded rules limit 0 a) : Bounded rules limit 0 b := by
  refine hsteps.keeps (fun a task _ hcons => perform ?_ fun c hc => ?_) h
  · refine ⟨?_, fun c hc => hcons.listed c (List.mem_cons_of_mem _ hc), hcons.known⟩
    have hlength := hcons.length_le
    rw [List.map_cons, List.sum_cons] at hlength
    dsimp only at hlength
    omega
  · exact hcons.listed c (hc ▸ List.mem_cons_self)

end Bounded

/-- At its beginning a year may use the allowance of each due trigger and of each category. -/
theorem bounded_start (rules : Rules) (year : Year) (world : World) (dice : σ) :
    Bounded rules (((world.due year).length + rules.catalog.categories.length) *
      rules.allowance rules.settings.maxDepth.toNat) 0 (start rules year world dice) := by
  unfold start
  split
  · exact ⟨Nat.zero_le _, fun c hc => absurd hc List.not_mem_nil, List.forall_mem_nil _⟩
  · refine ⟨?_, fun c hc => ?_, List.forall_mem_nil _⟩
    · show 0 + 0 + (((world.due year).map Task.attempt ++
        rules.catalog.categories.map Task.scan).map (·.allowance rules)).sum ≤ _
      rw [List.map_append, List.sum_append_nat, List.map_map, List.map_map]
      show 0 + 0 +
        (((world.due year).map fun _ => rules.allowance rules.settings.maxDepth.toNat).sum +
          (rules.catalog.categories.map fun _ =>
            rules.allowance rules.settings.maxDepth.toNat).sum) ≤ _
      simp [Nat.add_mul]
    · rcases List.mem_append.1 hc with hc | hc
      · obtain ⟨t, -, heq⟩ := List.mem_map.1 hc
        cases heq
      · obtain ⟨k, hk, heq⟩ := List.mem_map.1 hc
        cases heq
        exact hk

/-! ## Tasks -/

/-- The number of follow-ups of the events that have fired. -/
def branches (a : Agenda σ) : Nat := (a.fired.map fun f => f.event.followUps.length).sum

theorem strike_branches (a : Agenda σ) (category : String) (depth : Nat) (d : Definition)
    (origin : Origin) :
    (a.strike category depth d origin).tasks.length + a.branches =
      a.tasks.length + (a.strike category depth d origin).branches := by
  unfold branches strike
  simp only [List.length_append, List.length_map, List.map_append, List.sum_append_nat,
    List.map_cons, List.map_nil, List.sum_cons, List.sum_nil]
  omega

/-- A year begins with one task for each due trigger and for each category. -/
theorem length_tasks_start (rules : Rules) (year : Year) (world : World) (dice : σ) :
    (start rules year world dice).tasks.length ≤
      (world.due year).length + rules.catalog.categories.length := by
  unfold start
  split
  · exact Nat.zero_le _
  · simp

/-- The follow-ups of what has fired are no more than as many times the most that an event has. -/
theorem Bounded.branches_le {rules : Rules} {limit share : Nat} {a : Agenda σ}
    (h : Bounded rules limit share a) :
    a.branches ≤ rules.catalog.most (fun d => d.followUps.length) * a.fired.length := by
  have hknown := h.known
  unfold branches
  generalize a.fired = fired at hknown
  induction fired with
  | nil => exact Nat.zero_le _
  | cons f rest ih =>
    obtain ⟨hfirst, hrest⟩ := List.forall_mem_cons.1 hknown
    have hcount := Catalog.le_most hfirst fun d => d.followUps.length
    rw [List.map_cons, List.sum_cons, List.length_cons, Nat.mul_succ, Nat.add_comm]
    exact Nat.add_le_add (ih hrest) hcount

variable [Dice σ] {rules : Rules} {a b : Agenda σ} {n : Nat}

theorem answer_branches (rules : Rules) (call : Call) (a : Agenda σ) :
    (a.answer rules call).tasks.length + a.branches =
      a.tasks.length + (a.answer rules call).branches := by
  have hview := answered rules call a
  generalize a.answer rules call = b at hview ⊢
  cases hview with
  | missed hroll => rfl
  | unknown hroll hfind => rfl
  | fired d hroll hfind => exact strike_branches { a with dice := _ } _ _ d _

/-- Each task adds as many tasks as it adds follow-ups of events that have fired. -/
theorem perform_branches (rules : Rules) (a : Agenda σ) (task : Task) :
    (a.perform rules task).tasks.length + a.branches =
      a.tasks.length + (a.perform rules task).branches := by
  have hview := performed rules a task
  generalize a.perform rules task = b at hview ⊢
  cases hview with
  | attempted t => exact answer_branches rules _ a
  | barren hnone => rfl
  | silent hsome hquiet => rfl
  | picked d hmem hquiet => exact strike_branches { a with ready := _, dice := _ } _ _ d _
  | queued hdelay => rfl
  | dropped hdelay hdeep => rfl
  | called hdelay hdepth => exact answer_branches rules _ a

/-- The tasks that have been dealt with are those of the beginning that are not left, and the
follow-ups of what has fired since. -/
theorem Steps.count (h : Steps rules n a b) :
    n + b.tasks.length + a.branches = a.tasks.length + b.branches := by
  induction h with
  | done a => rw [Nat.zero_add]
  | @next n a b c hstep hrest ih =>
    obtain ⟨hfault, task, rest, htasks, rfl⟩ := step_eq_some hstep
    have hone := perform_branches rules { a with tasks := rest } task
    have hsame : ({ a with tasks := rest } : Agenda σ).branches = a.branches := rfl
    rw [hsame] at hone
    rw [htasks, List.length_cons]
    dsimp only at hone
    omega

end Agenda

/-! ## Triggers -/

/-- The trigger that a task tries. -/
def Task.trigger? : Task → Option Trigger
  | .attempt t => some t
  | _ => none

namespace Agenda

variable {σ : Type}

/-- The triggers that are still to be tried. -/
def attempts (a : Agenda σ) : List Trigger := a.tasks.filterMap Task.trigger?

/-- Triggers are tried from a list, and the queue only grows. -/
structure Drains (due queue : List Trigger) (a : Agenda σ) : Prop where
  attempts_suffix : a.attempts <:+ due
  prefix_queue : queue <+: a.world.queue

namespace Drains

variable {due queue : List Trigger} {a : Agenda σ}

/-- Only the tasks and the queue matter. -/
theorem congr {b : Agenda σ} (h : Drains due queue a) (htasks : b.tasks = a.tasks)
    (hqueue : b.world.queue = a.world.queue) : Drains due queue b where
  attempts_suffix := by
    unfold attempts
    rw [htasks]
    exact h.attempts_suffix
  prefix_queue := by
    rw [hqueue]
    exact h.prefix_queue

/-- An event that fires leaves the triggers alone. -/
theorem strike (h : Drains due queue a) (category : String) (depth : Nat) (d : Definition)
    (origin : Origin) : Drains due queue (a.strike category depth d origin) := by
  have hfollowUps : (d.followUps.map (Task.follow d category depth)).filterMap Task.trigger? =
      [] := by
    rw [List.filterMap_map]
    exact List.filterMap_eq_nil_iff.2 fun f _ => rfl
  constructor
  · show (d.followUps.map (Task.follow d category depth) ++ a.tasks).filterMap _ <:+ due
    rw [List.filterMap_append, hfollowUps]
    exact h.attempts_suffix
  · show queue <+: (Effect.applyAll a.world d.effects).1.queue
    rw [Effect.queue_applyAll]
    exact h.prefix_queue

variable [Dice σ] {rules : Rules}

theorem answer (h : Drains due queue a) (call : Call) :
    Drains due queue (a.answer rules call) := by
  have hview := answered rules call a
  generalize a.answer rules call = b at hview ⊢
  cases hview with
  | missed hroll => exact h.congr rfl rfl
  | unknown hroll hfind => exact h.congr rfl rfl
  | fired d hroll hfind =>
    refine strike ?_ _ _ d _
    exact h.congr rfl rfl

/-- A task puts triggers at the end of the queue, and nothing on the list of those to be tried. -/
theorem perform (h : Drains due queue a) (task : Task) :
    Drains due queue (a.perform rules task) := by
  have hview := performed rules a task
  generalize a.perform rules task = b at hview ⊢
  cases hview with
  | attempted t => exact h.answer _
  | barren hnone => exact h
  | silent hsome hquiet => exact h.congr rfl rfl
  | picked d hmem hquiet =>
    refine strike ?_ _ _ d _
    exact h.congr rfl rfl
  | @queued parent category depth f hdelay =>
    refine ⟨h.attempts_suffix, ?_⟩
    show queue <+: (a.world.schedule (Rules.triggerOf parent category f a.world.year)).queue
    rw [Rules.queue_schedule_triggerOf]
    exact h.prefix_queue.trans (List.prefix_append ..)
  | dropped hdelay hdeep => exact h
  | called hdelay hdepth => exact h.answer _

theorem steps {n : Nat} {b : Agenda σ} (hsteps : Steps rules n a b) (h : Drains due queue a) :
    Drains due queue b := by
  refine hsteps.keeps (fun a task _ hcons => ?_) h
  have hsuffix : a.attempts <:+ ({ a with tasks := task :: a.tasks } : Agenda σ).attempts :=
    (List.suffix_cons task a.tasks).filterMap Task.trigger?
  have hrest : Drains due queue a := ⟨hsuffix.trans hcons.attempts_suffix, hcons.prefix_queue⟩
  exact hrest.perform task

end Drains

/-- The triggers to be tried are those that are due at the beginning. -/
theorem attempts_start (rules : Rules) (year : Year) (world : World) (dice : σ) :
    (start rules year world dice).attempts <:+ world.due year := by
  have hattempts :
      ((world.due year).map Task.attempt).filterMap Task.trigger? = world.due year := by
    rw [List.filterMap_map]
    exact List.filterMap_some
  have hscans : (rules.catalog.categories.map Task.scan).filterMap Task.trigger? = [] := by
    rw [List.filterMap_map]
    exact List.filterMap_eq_nil_iff.2 fun c _ => rfl
  unfold start attempts
  split
  · exact List.nil_suffix
  · dsimp only
    rw [List.filterMap_append, hattempts, hscans, List.append_nil]

end Agenda

/-! ## Years -/

namespace Rules

variable {σ : Type} [Dice σ]

/-- A year ends within a bound, whatever the follow-ups of its catalog name. Task by task it comes
to an end, as it has been gone through, after no more tasks than there are due triggers, categories
and follow-ups of what fires. It reports at most as many events as there would be if each due
trigger and each category began a chain in which every event has as many follow-ups at once as any
event of the catalog. At any point, the triggers still to be tried are from those that were due at
the beginning, and what is in the queue stays there until the year is over. -/
theorem ends_within_bound (rules : Rules) (year : Year) (world : World) (dice : σ) :
    (rules.passYear year world dice).fired.length ≤
      ((world.due year).length + rules.catalog.categories.length) *
        ∑ i ∈ Finset.range (rules.settings.maxDepth.toNat + 1),
          rules.catalog.most (fun d => d.atOnce.length) ^ i ∧
    ∃ (n : Nat) (b : Agenda σ), Agenda.Steps rules n (.start rules year world dice) b ∧
      b.step rules = none ∧ b.passage = rules.passYear year world dice ∧
      n ≤ (world.due year).length + rules.catalog.categories.length +
        rules.catalog.most (fun d => d.followUps.length) *
          (rules.passYear year world dice).fired.length ∧
      ∀ (k : Nat) (a : Agenda σ), Agenda.Steps rules k (.start rules year world dice) a →
        k ≤ n ∧ a.attempts <:+ world.due year ∧
          a.world.queue <+: (rules.passYear year world dice).world.queue := by
  obtain ⟨n, b, hsteps, hend, hpassage, -⟩ := Agenda.exists_halt rules year world dice
  have hbounded := (Agenda.bounded_start rules year world dice).steps hsteps
  have hlength : (rules.passYear year world dice).fired.length = b.fired.length := by
    rw [← hpassage]
    exact List.length_map _
  refine ⟨?_, n, b, hsteps, hend, hpassage, ?_, fun k a hk => ?_⟩
  · have hle := hbounded.length_le
    rw [hlength]
    exact Nat.le_trans (Nat.le_trans (Nat.le_add_right ..) (Nat.le_add_right ..)) hle
  · have hcount := hsteps.count
    have hbranches := hbounded.branches_le
    have hroots := Agenda.length_tasks_start rules year world dice
    have hnone : (Agenda.start rules year world dice).branches = 0 := by
      unfold Agenda.start
      split <;> rfl
    rw [hlength]
    omega
  · obtain ⟨m, rfl, hlater⟩ := hk.towards hsteps hend
    have hself : Agenda.Drains a.attempts a.world.queue a :=
      ⟨List.suffix_refl _, List.prefix_refl _⟩
    have htried := Agenda.Drains.steps hk
      ⟨Agenda.attempts_start rules year world dice, List.prefix_refl _⟩
    refine ⟨Nat.le_add_right k m, htried.attempts_suffix, ?_⟩
    rw [← hpassage]
    exact (hself.steps hlater).prefix_queue

end Rules

end Annals
