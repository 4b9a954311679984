import Annals.Proofs.Course.Passage
/-!
# A year task by task

A year can be gone through with a list of tasks in place of nested loops. At first there is one task
for each due trigger and one for each category. The first task is taken and dealt with until none is
left or a fault comes up; an event that fires puts its follow-ups in front of what is left, each
with the depth of the event in its chain.

* `Task`, `Agenda`: what is left to do, and what has been done.
* `Agenda.step`, `Agenda.Steps`: one task is dealt with, and some number of tasks.
* `Agenda.Steps.keeps`: what each task keeps, any number of tasks keeps.
* `Agenda.chains_fire`: the tasks of an event play its chain.
* `Agenda.exists_halt`: the tasks of a year come to an end, and they have gone through the year.
-/

namespace Annals

/-! ## Stretches in a row -/

namespace Passage

variable {σ : Type}

theorem andThen_assoc (p : Passage σ) (f g : World → σ → Passage σ) :
    (p.andThen f).andThen g = p.andThen fun world dice => (f world dice).andThen g := by
  cases hp : p.fault with
  | some fault => rw [andThen_of_fault hp, andThen_of_fault hp, andThen_of_fault hp]
  | none =>
    rw [andThen_of_none hp, andThen_of_none hp]
    cases hf : (f p.world p.dice).fault with
    | some fault => simp [andThen, hf]
    | none => simp [andThen, hf]

theorem andThen_quiet (p : Passage σ) : p.andThen quiet = p := by
  cases hp : p.fault with
  | some fault => exact andThen_of_fault hp quiet
  | none =>
    rw [andThen_of_none hp]
    cases p
    cases hp
    simp [quiet]

end Passage

/-! ## Tasks -/

/-- An event that may fire: its chance, and how it is reported if it does. -/
structure Call where
  event : String
  /-- Who names the event. -/
  referencedBy : String
  chance : Float
  category : String
  /-- The number of steps from the root of the chain. -/
  depth : Nat
  origin : Origin

/-- A trigger calls for the root of a chain. -/
def Trigger.call (t : Trigger) : Call where
  event := t.event
  referencedBy := t.scheduledBy
  chance := t.chance
  category := t.category
  depth := 0
  origin := .delayed t.scheduledBy t.scheduledIn

/-- A follow-up at once calls for an event one step deeper in the chain. -/
def FollowUp.call (f : FollowUp) (parent : Definition) (category : String) (depth : Nat) :
    Call where
  event := f.event
  referencedBy := parent.id
  chance := f.chance
  category := category
  depth := depth + 1
  origin := .followUp parent.id

/-- Something that a year still has to deal with. -/
inductive Task where
  /-- A due trigger. -/
  | attempt (t : Trigger)
  /-- A category that may begin a chain. -/
  | scan (c : Category)
  /-- A follow-up of an event at some depth of a chain. -/
  | follow (parent : Definition) (category : String) (depth : Nat) (f : FollowUp)

/-- An event that fired, with its depth in its chain. -/
structure Firing where
  depth : Nat
  event : Definition
  occurrence : Occurrence

/-- The state between two tasks. -/
structure Agenda (σ : Type) where
  tasks : List Task
  world : World
  dice : σ
  /-- The events that fired, in the order in which they fired. -/
  fired : List Firing
  /-- The categories that could begin a chain when their turn came. -/
  ready : List Category
  fault : Option CourseFault

namespace Agenda

variable {σ : Type}

/-- What has been done of a year. -/
def passage (a : Agenda σ) : Passage σ where
  world := a.world
  dice := a.dice
  fired := a.fired.map (·.occurrence)
  fault := a.fault

/-- An event fires: its effects are applied, it is reported, and its follow-ups come next. -/
def strike (a : Agenda σ) (category : String) (depth : Nat) (d : Definition) (origin : Origin) :
    Agenda σ :=
  let world := (Effect.applyAll a.world d.effects).1
  let occurrence := Occurrence.ofDefinition d category world.year origin
  { a with
    tasks := d.followUps.map (.follow d category depth) ++ a.tasks
    world
    fired := a.fired ++ [{ depth, event := d, occurrence }] }

variable [Dice σ]

/-- A call is answered: one roll, and the event fires if it is in the catalog. -/
def answer (rules : Rules) (c : Call) (a : Agenda σ) : Agenda σ :=
  let (roll, dice) := Dice.roll a.dice
  if roll.reaches c.chance then { a with dice }
  else
    match rules.catalog.find? c.event with
    | some d => { a with dice }.strike c.category c.depth d c.origin
    | none => { a with dice, fault := some (.unknownEvent c.event c.referencedBy) }

/-- A category may begin a chain with one of its eligible events. -/
def scan (rules : Rules) (c : Category) (a : Agenda σ) : Agenda σ :=
  match Rules.eligible c a.world with
  | [] => a
  | first :: rest =>
    let a := { a with ready := a.ready ++ [c] }
    let (quiet, dice) := rules.staysQuiet a.dice
    if quiet then { a with dice }
    else
      let (place, dice) := Dice.long rest.length dice
      { a with dice }.strike c.name 0 ((first :: rest).get place) .scan

/-- A follow-up of an event at some depth is queued, called for or dropped. -/
def follow (rules : Rules) (parent : Definition) (category : String) (depth : Nat) (f : FollowUp)
    (a : Agenda σ) : Agenda σ :=
  if 0 < f.delay then
    { a with world := a.world.schedule (Rules.triggerOf parent category f a.world.year) }
  else if depth < rules.settings.maxDepth.toNat then
    a.answer rules (f.call parent category depth)
  else a

/-- Deals with a task that has been taken from the list. -/
def perform (rules : Rules) (a : Agenda σ) : Task → Agenda σ
  | .attempt t => a.answer rules t.call
  | .scan c => a.scan rules c
  | .follow parent category depth f => a.follow rules parent category depth f

/-- Takes the first task and deals with it. A fault ends the year. -/
def step (rules : Rules) (a : Agenda σ) : Option (Agenda σ) :=
  match a.fault, a.tasks with
  | none, task :: rest => some ({ a with tasks := rest }.perform rules task)
  | _, _ => none

/-- A number of tasks dealt with one after the other. -/
inductive Steps (rules : Rules) : Nat → Agenda σ → Agenda σ → Prop where
  | done (a : Agenda σ) : Steps rules 0 a a
  | next {n : Nat} {a b c : Agenda σ} (hstep : a.step rules = some b)
      (hrest : Steps rules n b c) : Steps rules (n + 1) a c

/-- The tasks of a year at its beginning. -/
def start (rules : Rules) (year : Year) (world : World) (dice : σ) : Agenda σ :=
  if year < world.year then
    { tasks := [], world, dice, fired := [], ready := []
      fault := some (.yearRegression world.year year) }
  else
    { tasks := (world.due year).map .attempt ++ rules.catalog.categories.map .scan
      world := world.entered year, dice, fired := [], ready := [], fault := none }

/-! ## Ways of a task -/

/-- The ways in which a call can end. -/
inductive Answered (rules : Rules) (c : Call) (a : Agenda σ) : Agenda σ → Prop where
  /-- The roll is too high. -/
  | missed (hroll : (Dice.roll a.dice).1.reaches c.chance = true) :
      Answered rules c a { a with dice := (Dice.roll a.dice).2 }
  /-- The event is not in the catalog. -/
  | unknown (hroll : (Dice.roll a.dice).1.reaches c.chance = false)
      (hfind : rules.catalog.find? c.event = none) :
      Answered rules c a
        { a with
          dice := (Dice.roll a.dice).2
          fault := some (.unknownEvent c.event c.referencedBy) }
  /-- The event fires. -/
  | fired (d : Definition) (hroll : (Dice.roll a.dice).1.reaches c.chance = false)
      (hfind : rules.catalog.find? c.event = some d) :
      Answered rules c a
        ({ a with dice := (Dice.roll a.dice).2 }.strike c.category c.depth d c.origin)

theorem answered (rules : Rules) (c : Call) (a : Agenda σ) :
    Answered rules c a (a.answer rules c) := by
  unfold answer
  exact rules.roll_cases c.event c.chance a.dice .missed .unknown .fired

/-- The ways in which a task can end. -/
inductive Performed (rules : Rules) (a : Agenda σ) : Task → Agenda σ → Prop where
  /-- A due trigger is a call. -/
  | attempted (t : Trigger) : Performed rules a (.attempt t) (a.answer rules t.call)
  /-- None of the events of a category may begin a chain. -/
  | barren {c : Category} (hnone : Rules.eligible c a.world = []) :
      Performed rules a (.scan c) a
  /-- The roll against the chance of categories is too high. -/
  | silent {c : Category} (hsome : Rules.eligible c a.world ≠ [])
      (hquiet : (rules.staysQuiet a.dice).1 = true) :
      Performed rules a (.scan c)
        { a with ready := a.ready ++ [c], dice := (rules.staysQuiet a.dice).2 }
  /-- One of the eligible events is picked and fires. -/
  | picked {c : Category} (d : Definition) (hmem : d ∈ Rules.eligible c a.world)
      (hquiet : (rules.staysQuiet a.dice).1 = false) :
      Performed rules a (.scan c)
        ({ a with
            ready := a.ready ++ [c]
            dice := (Dice.long ((Rules.eligible c a.world).length - 1)
              (rules.staysQuiet a.dice).2).2 }.strike c.name 0 d .scan)
  /-- A follow-up with a delay is queued. -/
  | queued {parent : Definition} {category : String} {depth : Nat} {f : FollowUp}
      (hdelay : 0 < f.delay) :
      Performed rules a (.follow parent category depth f)
        { a with world := a.world.schedule (Rules.triggerOf parent category f a.world.year) }
  /-- The chain may not grow. -/
  | dropped {parent : Definition} {category : String} {depth : Nat} {f : FollowUp}
      (hdelay : ¬ 0 < f.delay) (hdeep : ¬ depth < rules.settings.maxDepth.toNat) :
      Performed rules a (.follow parent category depth f) a
  /-- Any other follow-up is a call. -/
  | called {parent : Definition} {category : String} {depth : Nat} {f : FollowUp}
      (hdelay : ¬ 0 < f.delay) (hdepth : depth < rules.settings.maxDepth.toNat) :
      Performed rules a (.follow parent category depth f)
        (a.answer rules (f.call parent category depth))

theorem performed (rules : Rules) (a : Agenda σ) (task : Task) :
    Performed rules a task (a.perform rules task) := by
  cases task with
  | attempt t => exact .attempted t
  | scan c =>
    show Performed rules a _ (a.scan rules c)
    unfold scan
    exact Rules.scan_cases rules c a.world a.dice (P := Performed rules a (.scan c))
      (fun d dice => { a with ready := a.ready ++ [c], dice }.strike c.name 0 d .scan)
      .barren .silent .picked
  | follow parent category depth f =>
    show Performed rules a _ (a.follow rules parent category depth f)
    unfold follow
    split
    case isTrue hdelay => exact .queued hdelay
    case isFalse hdelay =>
      split
      case isTrue hdepth => exact .called hdelay hdepth
      case isFalse hdeep => exact .dropped hdelay hdeep

/-! ## Steps -/

variable {rules : Rules} {a b c : Agenda σ} {n m : Nat}

theorem step_cons {task : Task} {rest : List Task} (hfault : a.fault = none)
    (htasks : a.tasks = task :: rest) :
    a.step rules = some ({ a with tasks := rest }.perform rules task) := by
  unfold step
  rw [hfault, htasks]

theorem step_eq_some (h : a.step rules = some b) :
    a.fault = none ∧ ∃ task rest, a.tasks = task :: rest ∧
      b = { a with tasks := rest }.perform rules task := by
  unfold step at h
  split at h
  case h_1 task rest hfault htasks =>
    refine ⟨hfault, task, rest, htasks, ?_⟩
    cases h
    rw [hfault]
  case h_2 => cases h

theorem step_of_fault {fault : CourseFault} (h : a.fault = some fault) : a.step rules = none := by
  unfold step
  rw [h]

theorem step_of_tasks (h : a.tasks = []) : a.step rules = none := by
  unfold step
  rw [h]
  cases a.fault with
  | none => rfl
  | some fault => rfl

namespace Steps

theorem trans (h : Steps rules n a b) (h' : Steps rules m b c) : Steps rules (n + m) a c := by
  induction h with
  | done a =>
    rw [Nat.zero_add]
    exact h'
  | @next n a b _ hstep hrest ih =>
    rw [Nat.add_right_comm]
    exact .next hstep (ih h')

/-- What dealing with any one task keeps, dealing with any number of tasks keeps. -/
theorem keeps {P : Agenda σ → Prop}
    (hperform : ∀ (a : Agenda σ) (task : Task), a.fault = none →
      P { a with tasks := task :: a.tasks } → P (a.perform rules task))
    (h : Steps rules n a b) (ha : P a) : P b := by
  induction h with
  | done a => exact ha
  | @next n a b c hstep hrest ih =>
    obtain ⟨hfault, task, rest, htasks, rfl⟩ := step_eq_some hstep
    refine ih (hperform { a with tasks := rest } task hfault ?_)
    have hsame : ({ a with tasks := task :: rest } : Agenda σ) = a := by
      rw [← htasks]
    rw [hsame]
    exact ha

/-- There is one way to go: any steps are the first ones on the way to the end. -/
theorem towards (h : Steps rules n a b) (h' : Steps rules m a c) (hend : c.step rules = none) :
    ∃ k, m = n + k ∧ Steps rules k b c := by
  induction h generalizing m with
  | done a => exact ⟨m, (Nat.zero_add m).symm, h'⟩
  | @next n a b _ hstep hrest ih =>
    cases h' with
    | done =>
      rw [hstep] at hend
      cases hend
    | @next m _ b' _ hstep' hrest' =>
      rw [hstep] at hstep'
      cases hstep'
      obtain ⟨k, rfl, hlater⟩ := ih hrest'
      exact ⟨k, by omega, hlater⟩

end Steps

/-! ## Tasks and stretches -/

/-- From an agenda, steps lead to where a stretch is over and only some tasks are left, or to where
the stretch ends in a fault. -/
def Leads (rules : Rules) (a : Agenda σ) (rest : List Task) (p : Passage σ) : Prop :=
  ∃ n b, Steps rules n a b ∧ b.passage = p ∧ (p.fault = none → b.tasks = rest)

namespace Leads

variable {rest mid : List Task} {p q : Passage σ}

theorem stay (a : Agenda σ) : Leads rules a a.tasks a.passage := ⟨0, a, .done a, rfl, fun _ => rfl⟩

theorem next (hstep : a.step rules = some b) (h : Leads rules b rest p) : Leads rules a rest p := by
  obtain ⟨n, c, hsteps, hpassage, htasks⟩ := h
  exact ⟨n + 1, c, .next hstep hsteps, hpassage, htasks⟩

/-- A stretch behind another is led to when the tasks behind do it. -/
theorem andThen {next : World → σ → Passage σ} (h : Leads rules a mid p)
    (hnext : ∀ b : Agenda σ, b.fault = none → b.tasks = mid →
      Leads rules b rest (b.passage.andThen next)) : Leads rules a rest (p.andThen next) := by
  obtain ⟨n, b, hsteps, rfl, htasks⟩ := h
  cases hfault : b.fault with
  | some fault =>
    have hpassage : b.passage.fault = some fault := hfault
    rw [Passage.andThen_of_fault hpassage]
    refine ⟨n, b, hsteps, rfl, fun hnone => ?_⟩
    rw [hpassage] at hnone
    cases hnone
  | none =>
    obtain ⟨m, c, hsteps', hpassage, htasks'⟩ := hnext b hfault (htasks hfault)
    exact ⟨n + m, c, hsteps.trans hsteps', hpassage, htasks'⟩

end Leads

/-- Tasks at the head of the list do a stretch of the year. -/
def Does (rules : Rules) (tasks : List Task) (stretch : World → σ → Passage σ) : Prop :=
  ∀ (a : Agenda σ) (rest : List Task), a.fault = none → a.tasks = tasks ++ rest →
    Leads rules a rest (a.passage.andThen stretch)

namespace Does

theorem nil : Does rules [] (Passage.quiet (σ := σ)) := by
  rintro a rest hfault rfl
  rw [Passage.andThen_quiet]
  exact .stay a

theorem append {tasks tasks' : List Task} {stretch stretch' : World → σ → Passage σ}
    (h : Does rules tasks stretch) (h' : Does rules tasks' stretch') :
    Does rules (tasks ++ tasks') fun world dice => (stretch world dice).andThen stretch' := by
  intro a rest hfault htasks
  rw [← Passage.andThen_assoc]
  rw [List.append_assoc] at htasks
  exact (h a _ hfault htasks).andThen fun b hfault' htasks' => h' b rest hfault' htasks'

theorem each {α : Type} {task : α → Task} {stretch : α → World → σ → Passage σ}
    (h : ∀ item, Does rules [task item] (stretch item)) (items : List α) :
    Does rules (items.map task) (Passage.each stretch items) := by
  induction items with
  | nil => exact .nil
  | cons item items ih => exact (h item).append ih

/-- A task by itself does a stretch when what is left of it after one step does. -/
theorem of_perform {task : Task} {stretch : World → σ → Passage σ}
    (h : ∀ a : Agenda σ, a.fault = none →
      Leads rules (a.perform rules task) a.tasks (a.passage.andThen stretch)) :
    Does rules [task] stretch := by
  intro a rest hfault htasks
  exact .next (step_cons hfault htasks) (h { a with tasks := rest } hfault)

end Does

/-! ## Chains -/

/-- The tasks of an event at some depth play a chain. -/
def Chains (rules : Rules) (σ : Type) [Dice σ] (category : String) (depth : Nat)
    (fire : Definition → Origin → World → σ → Passage σ) : Prop :=
  ∀ (a : Agenda σ) (d : Definition) (origin : Origin), a.fault = none →
    Leads rules (a.strike category depth d origin) a.tasks (a.passage.andThen (fire d origin))

/-- A call does a roll and what it calls for. -/
theorem leads_answer {call : Call} {fire : Definition → Origin → World → σ → Passage σ}
    (hfire : Chains rules σ call.category call.depth fire) (h : a.fault = none) :
    Leads rules (a.answer rules call) a.tasks (a.passage.andThen fun world dice =>
      if (Dice.roll dice).1.reaches call.chance then .quiet world (Dice.roll dice).2
      else rules.withEvent call.event call.referencedBy (fun d => fire d call.origin) world
        (Dice.roll dice).2) := by
  have hpassage : a.passage.fault = none := h
  have hrolled : ({ a with dice := (Dice.roll a.dice).2 } : Agenda σ).passage.fault = none := h
  rw [Passage.andThen_of_none hpassage]
  have hview := answered rules call a
  generalize a.answer rules call = b at hview ⊢
  cases hview with
  | missed hroll =>
    refine ⟨0, _, .done _, ?_, fun _ => rfl⟩
    simp [passage, hroll, Passage.quiet, h]
  | unknown hroll hfind =>
    refine ⟨0, _, .done _, ?_, fun _ => rfl⟩
    simp [passage, hroll, Rules.withEvent, hfind, Passage.failed]
  | fired d hroll hfind =>
    have hchain := hfire { a with dice := (Dice.roll a.dice).2 } d call.origin h
    rw [Passage.andThen_of_none hrolled] at hchain
    simpa [passage, hroll, Rules.withEvent, hfind] using hchain

/-- The task of a follow-up deals with it. -/
theorem does_follow {fire? : Option (Definition → Origin → World → σ → Passage σ)}
    {category : String} {depth : Nat}
    (hnone : fire? = none → ¬ depth < rules.settings.maxDepth.toNat)
    (hfire : ∀ fire, fire? = some fire → depth < rules.settings.maxDepth.toNat ∧
      Chains rules σ category (depth + 1) fire) (parent : Definition) (f : FollowUp) :
    Does rules [.follow parent category depth f] (Rules.follow rules fire? parent category f) := by
  refine .of_perform fun a hfault => ?_
  have hpassage : a.passage.fault = none := hfault
  have hview := performed rules a (.follow parent category depth f)
  generalize a.perform rules (.follow parent category depth f) = b at hview ⊢
  cases hview with
  | queued hdelay =>
    rw [Passage.andThen_of_none hpassage]
    refine ⟨0, _, .done _, ?_, fun _ => rfl⟩
    simp [passage, Rules.follow, hdelay, Passage.quiet, hfault]
  | dropped hdelay hdeep =>
    cases fire? with
    | some fire => exact absurd (hfire fire rfl).1 hdeep
    | none =>
      have hquiet : Rules.follow rules none parent category f =
          (Passage.quiet : World → σ → Passage σ) := by
        funext world dice
        simp [Rules.follow, hdelay]
      rw [hquiet, Passage.andThen_quiet]
      exact .stay a
  | called hdelay hdepth =>
    cases fire? with
    | none => exact absurd hdepth (hnone rfl)
    | some fire =>
      have hcall : Rules.follow rules (some fire) parent category f = fun world (dice : σ) =>
          if (Dice.roll dice).1.reaches f.chance then .quiet world (Dice.roll dice).2
          else rules.withEvent f.event parent.id (fun d => fire d (.followUp parent.id)) world
            (Dice.roll dice).2 := by
        funext world dice
        simp [Rules.follow, hdelay]
      rw [hcall]
      have hchains : Chains rules σ (f.call parent category depth).category
          (f.call parent category depth).depth fire := (hfire fire rfl).2
      exact leads_answer hchains hfault

/-- The tasks of an event play its chain when the task of each follow-up deals with it. -/
theorem chains_strike {fire? : Option (Definition → Origin → World → σ → Passage σ)}
    {category : String} {depth : Nat}
    (hfollow : ∀ parent f, Does rules [.follow parent category depth f]
      (Rules.follow rules fire? parent category f)) :
    Chains rules σ category depth (Rules.strike rules fire? category) := by
  intro a d origin hfault
  have hstruck : (a.strike category depth d origin).passage =
      a.passage.andThen (Rules.struck category d origin) := by
    have hpassage : a.passage.fault = none := hfault
    rw [Passage.andThen_of_none hpassage]
    simp [passage, strike, Rules.struck, hfault]
  have hlinks := Does.each (hfollow d) d.followUps (a.strike category depth d origin) a.tasks
    hfault rfl
  rw [hstruck, Passage.andThen_assoc] at hlinks
  exact hlinks

/-- An event plays its chain, however many steps are left to its chain. -/
theorem chains_fire (rules : Rules) (category : String) {depth left : Nat}
    (hdepth : depth + left = rules.settings.maxDepth.toNat) :
    Chains rules σ category depth (Rules.fire rules category left) := by
  -- The induction is on the steps that are left; the depth grows as they get fewer.
  induction left generalizing depth with
  | zero =>
    refine chains_strike fun parent f => does_follow (fun _ => by omega) ?_ parent f
    intro fire hfire
    cases hfire
  | succ left ih =>
    refine chains_strike fun parent f => does_follow ?_ ?_ parent f
    · intro hnone
      cases hnone
    · intro fire hfire
      cases hfire
      exact ⟨by omega, ih (by omega)⟩

/-! ## Years -/

theorem does_attempt (rules : Rules) (t : Trigger) :
    Does (σ := σ) rules [.attempt t] (rules.tryTrigger t) := by
  refine .of_perform fun a hfault => ?_
  have hchains : Chains rules σ t.call.category t.call.depth
      (Rules.fire rules t.category rules.settings.maxDepth.toNat) :=
    chains_fire rules t.category (Nat.zero_add _)
  exact leads_answer hchains hfault

theorem does_scan (rules : Rules) (c : Category) :
    Does (σ := σ) rules [.scan c] (rules.scan c) := by
  refine .of_perform fun a hfault => ?_
  have hpassage : a.passage.fault = none := hfault
  rw [Passage.andThen_of_none hpassage]
  show Leads rules (a.scan rules c) _ _
  unfold scan
  cases hlist : Rules.eligible c a.world with
  | nil =>
    refine ⟨0, a, .done a, ?_, fun _ => rfl⟩
    simp [passage, Rules.scan, hlist, Passage.quiet, hfault]
  | cons first rest =>
    cases hquiet : (rules.staysQuiet a.dice).1 with
    | true =>
      simp only [hquiet, if_true]
      refine ⟨0, _, .done _, ?_, fun _ => rfl⟩
      simp [passage, Rules.scan, hlist, hquiet, Passage.quiet, hfault]
    | false =>
      have hpick := chains_fire rules c.name (Nat.zero_add rules.settings.maxDepth.toNat)
        { a with
          ready := a.ready ++ [c]
          dice := (Dice.long rest.length (rules.staysQuiet a.dice).2).2 }
        ((first :: rest).get (Dice.long rest.length (rules.staysQuiet a.dice).2).1) .scan hfault
      rw [Passage.andThen_of_none hfault] at hpick
      simpa [passage, Rules.scan, hlist, hquiet, Rules.fireRoot] using hpick

/-- The tasks of a year come to an end, and then the year has been gone through. -/
theorem exists_halt (rules : Rules) (year : Year) (world : World) (dice : σ) :
    ∃ n b, Steps rules n (start rules year world dice) b ∧ b.step rules = none ∧
      b.passage = rules.passYear year world dice ∧
      ((rules.passYear year world dice).fault = none → b.tasks = []) := by
  unfold start
  by_cases hyear : year < world.year
  · rw [if_pos hyear, Rules.passYear_of_lt hyear]
    refine ⟨0, _, .done _, step_of_tasks rfl, rfl, fun hnone => ?_⟩
    cases hnone
  · rw [if_neg hyear, Rules.passYear_eq hyear]
    have htrials := Does.each (does_attempt (σ := σ) rules) (world.due year)
    have hscans := Does.each (does_scan (σ := σ) rules) rules.catalog.categories
    obtain ⟨n, b, hsteps, hpassage, htasks⟩ := htrials.append hscans
      { tasks := (world.due year).map .attempt ++ rules.catalog.categories.map .scan
        world := world.entered year, dice, fired := [], ready := [], fault := none } [] rfl
      (List.append_nil _).symm
    rw [Passage.andThen_of_none rfl] at hpassage htasks
    refine ⟨n, b, hsteps, ?_, hpassage, htasks⟩
    cases hfault : b.fault with
    | some fault => exact step_of_fault hfault
    | none =>
      have hnone : b.passage.fault = none := hfault
      rw [hpassage] at hnone
      exact step_of_tasks (htasks hnone)

end Agenda

end Annals
