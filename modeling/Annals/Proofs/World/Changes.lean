import Annals.Proofs.World.Replay
import Mathlib.Algebra.Group.Int.Defs
/-!
# What effects report

Every effect is answered by a change. The change says which stat was set, from what and to what, and
it is told from what that stat was alone. So the list of changes is a full account of what a list of
effects did: the world that they leave can be told from the one that they found and the account.

* `Cell`: one stat of one owner.
* `Effect.Reports`: the change that an effect reports, told from what its cell held.
* `World.OnlyIn`: two worlds that differ in some cells at most.
* `Effect.Done`: all that one effect does; `Effect.done_apply`: every effect does that.
* `World.retrace`: a world after the changes of an account; `Effect.applyAll_eq_retrace`: it is the
  world that the effects leave.
* `World.held_retrace`: a cell holds what the last change of it says, or what it held at first.
* `Effect.applyAll_accounted`: lists of effects.
-/

namespace Annals

/-! ## Cells -/

/-- One stat of one owner. -/
structure Cell where
  side : Side
  owner : String
  stat : String
deriving DecidableEq, Repr

namespace World

/-- What a cell holds, if the owner and the stat are there. -/
def held (w : World) (c : Cell) : Option Stat := w.stat? c.side c.owner c.stat

/-- The world with a value in a cell. -/
def put (w : World) (c : Cell) (value : Stat) : World := w.setStat c.side c.owner c.stat value

@[simp] theorem year_put (w : World) (c : Cell) (value : Stat) : (w.put c value).year = w.year :=
  year_withOwners ..

@[simp] theorem queue_put (w : World) (c : Cell) (value : Stat) :
    (w.put c value).queue = w.queue := queue_withOwners ..

@[simp] theorem held_put_self (w : World) (c : Cell) (value : Stat) :
    (w.put c value).held c = some value := stat?_setStat_self ..

theorem held_put_ne {c c' : Cell} (h : c' ≠ c) (w : World) (value : Stat) :
    (w.put c value).held c' = w.held c' := by
  refine stat?_setStat_ne (fun heq => h ?_) w value
  obtain ⟨side, owner, stat⟩ := c
  obtain ⟨side', owner', stat'⟩ := c'
  cases heq
  rfl

/-- The owners of the other kind do not change. -/
theorem owners_put_ne {c : Cell} {side : Side} (h : c.side ≠ side) (w : World) (value : Stat) :
    (w.put c value).owners side = w.owners side := owners_withOwners_ne h.symm ..

/-- No other owner changes, and none appears. -/
theorem owner?_put_ne {c : Cell} {side : Side} {owner : String}
    (h : (c.side, c.owner) ≠ (side, owner)) (w : World) (value : Stat) :
    (w.put c value).owner? side owner = w.owner? side owner := by
  by_cases hside : c.side = side
  · subst hside
    have howner : owner ≠ c.owner := fun heq => h (by rw [heq])
    show ((w.withOwners c.side _).owners c.side).get? owner = (w.owners c.side).get? owner
    rw [owners_withOwners_self, Table.get?_insert_ne howner]
  · unfold owner?
    rw [owners_put_ne hside]

/-- Two worlds that differ in some cells at most. -/
structure OnlyIn (cells : List Cell) (w v : World) : Prop where
  year : v.year = w.year
  queue : v.queue = w.queue
  /-- All owners of one kind are the same when no cell is about that kind. -/
  owners : ∀ side, (∀ c ∈ cells, c.side ≠ side) → v.owners side = w.owners side
  /-- An owner is there or not, with the same stats, when no cell is about the owner. -/
  owner : ∀ side owner, (∀ c ∈ cells, (c.side, c.owner) ≠ (side, owner)) →
    v.owner? side owner = w.owner? side owner
  held : ∀ c, c ∉ cells → v.held c = w.held c

namespace OnlyIn

variable {w v u : World} {cells more : List Cell}

theorem refl (w : World) (cells : List Cell) : w.OnlyIn cells w where
  year := rfl
  queue := rfl
  owners := fun _ _ => rfl
  owner := fun _ _ _ => rfl
  held := fun _ _ => rfl

theorem put (w : World) (c : Cell) (value : Stat) : w.OnlyIn [c] (w.put c value) where
  year := year_put ..
  queue := queue_put ..
  owners := fun _ h => owners_put_ne (h c List.mem_cons_self) w value
  owner := fun _ _ h => owner?_put_ne (h c List.mem_cons_self) w value
  held := fun _ h => held_put_ne (fun heq => h (List.mem_singleton.2 heq)) w value

/-- Differences add up. -/
theorem trans (h : w.OnlyIn cells v) (h' : v.OnlyIn more u) : w.OnlyIn (cells ++ more) u where
  year := h'.year.trans h.year
  queue := h'.queue.trans h.queue
  owners := by
    intro side hside
    obtain ⟨hfirst, hrest⟩ := List.forall_mem_append.1 hside
    exact (h'.owners side hrest).trans (h.owners side hfirst)
  owner := by
    intro side owner howner
    obtain ⟨hfirst, hrest⟩ := List.forall_mem_append.1 howner
    exact (h'.owner side owner hrest).trans (h.owner side owner hfirst)
  held := by
    intro c hc
    rw [List.mem_append, not_or] at hc
    exact (h'.held c hc.2).trans (h.held c hc.1)

end OnlyIn

end World

/-! ## Changes -/

namespace Change

/-- The cell that was set, with its new value. -/
def written? : Change → Option (Cell × Stat)
  | .adjusted target stat _ after => some (⟨target.side, target.name, stat⟩, .number after)
  | .appointed faction _ leader => some (⟨.faction, faction, Effect.leaderStat⟩, .text leader)
  | .unchanged => none

/-- The cell that was set. -/
def cell? (change : Change) : Option Cell := change.written?.map (·.1)

/-- The value that a cell was set to, when it is the one that was set. -/
def valueIn? (change : Change) (c : Cell) : Option Stat :=
  (change.written?.filter (·.1 = c)).map (·.2)

end Change

namespace World

/-- The world after a change. -/
def record (w : World) (change : Change) : World :=
  (change.written?.map fun e => w.put e.1 e.2).getD w

/-- The world after the changes of an account, in their order. -/
def retrace (w : World) (account : List Change) : World := account.foldl record w

theorem record_of_none {change : Change} (h : change.written? = none) (w : World) :
    w.record change = w := by simp [record, h]

theorem record_of_some {change : Change} {c : Cell} {value : Stat}
    (h : change.written? = some (c, value)) (w : World) : w.record change = w.put c value := by
  simp [record, h]

theorem onlyIn_record (w : World) (change : Change) :
    w.OnlyIn change.cell?.toList (w.record change) := by
  unfold Change.cell?
  cases hwritten : change.written? with
  | none =>
    rw [record_of_none hwritten]
    exact .refl w _
  | some e =>
    rw [record_of_some hwritten]
    exact .put w e.1 e.2

/-- A change says what its cell holds afterwards; any other cell holds what it held. -/
theorem held_record (w : World) (change : Change) (c : Cell) :
    (w.record change).held c = (change.valueIn? c).or (w.held c) := by
  unfold Change.valueIn?
  cases hwritten : change.written? with
  | none => simp [record_of_none hwritten]
  | some e =>
    rw [record_of_some hwritten]
    by_cases hcell : e.1 = c
    · subst hcell
      simp [Option.filter]
    · simp [Option.filter, hcell, held_put_ne (Ne.symm hcell)]

/-- The last change of a cell in an account says what it holds. A cell that is not changed holds
what it held at first. -/
theorem held_retrace (w : World) (account : List Change) (c : Cell) :
    (w.retrace account).held c =
      (account.filterMap (·.valueIn? c)).getLast?.or (w.held c) := by
  induction account generalizing w with
  | nil => rfl
  | cons change rest ih =>
    show ((w.record change).retrace rest).held c = _
    rw [ih, held_record, List.filterMap_cons]
    cases change.valueIn? c with
    | none => rfl
    | some value =>
      -- The first change of the cell counts only when no later one does.
      rw [List.getLast?_cons]
      cases (rest.filterMap (·.valueIn? c)).getLast? <;> rfl

theorem onlyIn_retrace (w : World) (account : List Change) :
    w.OnlyIn (account.filterMap (·.cell?)) (w.retrace account) := by
  induction account generalizing w with
  | nil => exact .refl w _
  | cons change rest ih =>
    have hboth := (onlyIn_record w change).trans (ih (w.record change))
    rw [List.filterMap_cons]
    cases hcell : change.cell? with
    | none =>
      rw [hcell] at hboth
      exact hboth
    | some c =>
      rw [hcell] at hboth
      exact hboth

/-- Worlds with the same stats have the same stats after the same changes. -/
theorem SameStats.retrace {w v : World} (h : w.SameStats v) (account : List Change) :
    (w.retrace account).SameStats (v.retrace account) := by
  induction account generalizing w v with
  | nil => exact h
  | cons change rest ih =>
    refine ih ?_
    cases hwritten : change.written? with
    | none =>
      rw [record_of_none hwritten, record_of_none hwritten]
      exact h
    | some e =>
      rw [record_of_some hwritten, record_of_some hwritten]
      exact h.setStat ..

end World

/-! ## One effect -/

namespace Effect

/-- The cell that an effect is about. -/
def cell? : Effect → Option Cell
  | .adjust target stat _ => some ⟨target.side, target.name, stat⟩
  | .appoint faction _ => some ⟨.faction, faction, leaderStat⟩
  | .unknown _ => none

/-- The change that an effect reports when its cell holds `found`. -/
inductive Reports (found : Option Stat) : Effect → Change → Prop where
  /-- A number is moved by the amount and held between zero and a hundred; nothing counts as zero.
  The sum is one of integers, however large the words are. -/
  | moved {target : Target} {stat : String} {amount before after : Int64}
      (hbefore : found = some (.number before) ∨ (found = none ∧ before = 0))
      (hafter : after.toInt = min 100 (max 0 (before.toInt + amount.toInt))) :
      Reports found (.adjust target stat amount) (.adjusted target stat before after)
  /-- A text is not moved. -/
  | kept {target : Target} {stat : String} {amount : Int64} {text : String}
      (hfound : found = some (.text text)) : Reports found (.adjust target stat amount) .unchanged
  /-- A leader follows the one before, if a text names one. -/
  | appointed {faction leader : String} :
      Reports found (.appoint faction leader)
        (.appointed faction (found.bind Stat.text?) leader)
  | unknown {kind : String} : Reports found (.unknown kind) .unchanged

/-- All that one effect does to a world, with the change that it reports. -/
structure Done (w : World) (e : Effect) (v : World) (change : Change) : Prop where
  reports : e.Reports (e.cell?.bind w.held) change
  /-- A change is one of the effect's own cell, and what it says is there afterwards. -/
  stored : ∀ c value, change.written? = some (c, value) → e.cell? = some c ∧ v.held c = some value
  /-- Where nothing is reported, nothing is done. -/
  idle : change = .unchanged → v = w
  onlyIn : w.OnlyIn change.cell?.toList v

/-- A sum that is held at the ends of the range of words, and then between zero and a hundred, is
the sum of integers held between zero and a hundred. -/
theorem toInt_clamp_addSaturated (a b : Int64) :
    (clamp (addSaturated a b)).toInt = min 100 (max 0 (a.toInt + b.toInt)) := by
  have hfloor : floor.toInt = 0 := rfl
  have hceiling : ceiling.toInt = 100 := rfl
  have hsum : (addSaturated a b).toInt =
      max (-2 ^ 63) (min (2 ^ 63 - 1) (a.toInt + b.toInt)) := by
    unfold addSaturated
    rw [Int64.toInt_minValue, Int64.toInt_maxValue]
    rw [Int64.toInt_ofInt_of_le (by omega) (by omega)]
  unfold clamp
  simp only [Int64.lt_iff_toInt_lt]
  split
  · omega
  · split
    · omega
    · omega

theorem reports_apply (w : World) (e : Effect) :
    e.Reports (e.cell?.bind w.held) (apply w e).2 := by
  cases e with
  | adjust target stat amount =>
    show Reports (w.stat? target.side target.name stat) _ (adjustStat target stat amount w).2
    unfold adjustStat
    cases hfound : w.stat? target.side target.name stat with
    | none => exact .moved (.inr ⟨rfl, rfl⟩) (toInt_clamp_addSaturated 0 amount)
    | some value =>
      cases value with
      | number n => exact .moved (.inl rfl) (toInt_clamp_addSaturated n amount)
      | text s => exact .kept rfl
  | appoint faction leader => exact .appointed
  | unknown kind => exact .unknown

/-- A change is one of the effect's own cell. -/
theorem Reports.cell?_eq {found : Option Stat} {e : Effect} {change : Change}
    (h : e.Reports found change) {c : Cell} (hc : change.cell? = some c) : e.cell? = some c := by
  cases h with
  | moved hbefore hafter => exact hc
  | kept hfound => cases hc
  | appointed => exact hc
  | unknown => cases hc

/-- The world that an effect leaves can be told from the change. -/
theorem apply_eq_record (w : World) (e : Effect) : (apply w e).1 = w.record (apply w e).2 := by
  cases e with
  | adjust target stat amount =>
    show (adjustStat target stat amount w).1 = w.record (adjustStat target stat amount w).2
    unfold adjustStat
    cases w.stat? target.side target.name stat with
    | none => rfl
    | some value => cases value <;> rfl
  | appoint faction leader => rfl
  | unknown kind => rfl

/-- Every effect does what it reports, and nothing else. -/
theorem done_apply (w : World) (e : Effect) : e.Done w (apply w e).1 (apply w e).2 := by
  have hreports := reports_apply w e
  rw [apply_eq_record]
  refine ⟨hreports, fun c value hwritten => ?_, fun hidle => ?_, w.onlyIn_record _⟩
  · have hcell : (apply w e).2.cell? = some c := by simp [Change.cell?, hwritten]
    rw [World.record_of_some hwritten]
    exact ⟨hreports.cell?_eq hcell, w.held_put_self c value⟩
  · rw [hidle]
    rfl

/-! ## Lists of effects -/

theorem length_applyAll (w : World) (es : List Effect) :
    (applyAll w es).2.length = es.length := by
  induction es generalizing w with
  | nil => rfl
  | cons e es ih => exact congrArg (· + 1) (ih (apply w e).1)

/-- The account of effects can be retraced. -/
theorem applyAll_eq_retrace (w : World) (es : List Effect) :
    (applyAll w es).1 = w.retrace (applyAll w es).2 := by
  induction es generalizing w with
  | nil => rfl
  | cons e es ih =>
    show (applyAll (apply w e).1 es).1 =
      (w.record (apply w e).2).retrace (applyAll (apply w e).1 es).2
    rw [← apply_eq_record, ih]

/-- The effect in some place of a list finds the world of the effects before it, and does what the
change in the same place reports. -/
theorem exists_done {es : List Effect} {i : Nat} {e : Effect} (h : es[i]? = some e) (w : World) :
    ∃ change, (applyAll w es).2[i]? = some change ∧
      (applyAll w (es.take i)).2 = (applyAll w es).2.take i ∧
      e.Done (applyAll w (es.take i)).1 (applyAll w (es.take (i + 1))).1 change := by
  induction es generalizing w i with
  | nil => cases h
  | cons first rest ih =>
    cases i with
    | zero =>
      cases h
      exact ⟨_, rfl, rfl, done_apply w e⟩
    | succ i =>
      obtain ⟨change, hchange, hbefore, hdone⟩ := ih h (apply w first).1
      exact ⟨change, hchange, congrArg ((apply w first).2 :: ·) hbefore, hdone⟩

/-- A list of effects reports one change for each effect, in their order. Each effect does what its
change reports, and nothing else; what it finds in its cell is what the last change of that cell
before it says, or what the cell held at first. Cells, owners and kinds of owners that no change is
about stay as they are, and so do the year and the queue. The stats at the end can be told from
those at the beginning and the changes. -/
theorem applyAll_accounted (w : World) (es : List Effect) :
    (applyAll w es).2.length = es.length ∧
    (∀ i e, es[i]? = some e → ∃ change, (applyAll w es).2[i]? = some change ∧
      e.Done (applyAll w (es.take i)).1 (applyAll w (es.take (i + 1))).1 change ∧
      ∀ c, e.cell? = some c → (applyAll w (es.take i)).1.held c =
        (((applyAll w es).2.take i).filterMap (·.valueIn? c)).getLast?.or (w.held c)) ∧
    w.OnlyIn ((applyAll w es).2.filterMap (·.cell?)) (applyAll w es).1 ∧
    (∀ v : World, v.SameStats w → (v.retrace (applyAll w es).2).SameStats (applyAll w es).1) := by
  refine ⟨length_applyAll w es, fun i e he => ?_, ?_, fun v hv => ?_⟩
  · obtain ⟨change, hchange, hbefore, hdone⟩ := exists_done he w
    refine ⟨change, hchange, hdone, fun c _ => ?_⟩
    rw [applyAll_eq_retrace, World.held_retrace, hbefore]
  · rw [applyAll_eq_retrace]
    exact w.onlyIn_retrace _
  · rw [applyAll_eq_retrace]
    exact hv.retrace _

end Effect

end Annals
