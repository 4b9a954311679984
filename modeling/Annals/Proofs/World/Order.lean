import Annals.Proofs.World.Changes
import Mathlib.Data.List.Nodup
/-!
# Effects in any order

What an effect does and reports is told from its own cell. So effects on different cells do not see
each other, and a list of them may be applied in any order.

* `Table.insert_comm`, `World.put_comm`: values of different names, or in different cells, may be
  written in either order.
* `Effect.snd_apply_congr`: an effect reports the same in worlds that agree on its cell.
* `Effect.apply_comm`: two effects on different cells.
* `Effect.snd_applyAll_eq_map`: among effects on different cells, each reports what it would report
  alone.
* `Effect.applyAll_perm`: such a list in any order.
-/

namespace Annals

/-! ## Tables -/

namespace Table

variable {α : Type}

/-- Of two values of one name the later one counts. -/
theorem insert_insert_self (t : Table α) (name : String) (first second : α) :
    (t.insert name first).insert name second = t.insert name second := by
  refine ext_get? fun other => ?_
  by_cases h : other = name
  · rw [h, get?_insert_self, get?_insert_self]
  · rw [get?_insert_ne h, get?_insert_ne h, get?_insert_ne h]

/-- Values of two names may be written in either order. -/
theorem insert_comm {name name' : String} (h : name ≠ name') (t : Table α) (value value' : α) :
    (t.insert name value).insert name' value' = (t.insert name' value').insert name value := by
  refine ext_get? fun other => ?_
  by_cases hname : other = name
  · subst hname
    rw [get?_insert_ne h, get?_insert_self, get?_insert_self]
  · by_cases hname' : other = name'
    · subst hname'
      rw [get?_insert_self, get?_insert_ne hname, get?_insert_self]
    · rw [get?_insert_ne hname', get?_insert_ne hname, get?_insert_ne hname,
        get?_insert_ne hname']

/-- The owners with one stat set. -/
def withStat (t : Table Stats) (owner stat : String) (value : Stat) : Table Stats :=
  t.insert owner (((t.get? owner).getD .empty).insert stat value)

/-- Two stats of one owner, which the first of them may have created, or stats of two owners. -/
theorem withStat_comm {owner owner' stat stat' : String} (h : (owner, stat) ≠ (owner', stat'))
    (t : Table Stats) (value value' : Stat) :
    (t.withStat owner stat value).withStat owner' stat' value' =
      (t.withStat owner' stat' value').withStat owner stat value := by
  unfold withStat
  by_cases howner : owner = owner'
  · subst howner
    have hstat : stat ≠ stat' := fun heq => h (by rw [heq])
    rw [get?_insert_self, get?_insert_self, insert_insert_self, insert_insert_self]
    rw [Option.getD_some, Option.getD_some, insert_comm hstat]
  · rw [get?_insert_ne (Ne.symm howner), get?_insert_ne howner, insert_comm howner]

end Table

/-! ## Cells -/

namespace World

theorem put_eq (w : World) (c : Cell) (value : Stat) :
    w.put c value = w.withOwners c.side ((w.owners c.side).withStat c.owner c.stat value) := rfl

theorem withOwners_self (w : World) (side : Side) (t t' : Table Stats) :
    (w.withOwners side t).withOwners side t' = w.withOwners side t' := by cases side <;> rfl

theorem withOwners_comm {side side' : Side} (h : side ≠ side') (w : World) (t t' : Table Stats) :
    (w.withOwners side t).withOwners side' t' = (w.withOwners side' t').withOwners side t := by
  cases side <;> cases side'
  · exact absurd rfl h
  · rfl
  · rfl
  · exact absurd rfl h

/-- Two cells may be written in either order. -/
theorem put_comm {c c' : Cell} (h : c ≠ c') (w : World) (value value' : Stat) :
    (w.put c value).put c' value' = (w.put c' value').put c value := by
  obtain ⟨side, owner, stat⟩ := c
  obtain ⟨side', owner', stat'⟩ := c'
  simp only [put_eq]
  by_cases hside : side = side'
  · subst hside
    have hcell : (owner, stat) ≠ (owner', stat') := by
      intro heq
      cases heq
      exact h rfl
    rw [owners_withOwners_self, owners_withOwners_self, withOwners_self, withOwners_self,
      Table.withStat_comm hcell]
  · -- A region and a faction of one name are still two owners.
    rw [owners_withOwners_ne (Ne.symm hside), owners_withOwners_ne hside, withOwners_comm hside]

/-- Changes of two cells may be retraced in either order. -/
theorem record_comm {a b : Change} (h : ∀ c, a.cell? = some c → b.cell? ≠ some c) (w : World) :
    (w.record a).record b = (w.record b).record a := by
  cases ha : a.written? with
  | none => rw [record_of_none ha, record_of_none ha]
  | some e =>
    cases hb : b.written? with
    | none => rw [record_of_none hb, record_of_none hb]
    | some e' =>
      have hne : e.1 ≠ e'.1 := by
        intro heq
        refine h e.1 ?_ ?_
        · simp [Change.cell?, ha]
        · simp [Change.cell?, hb, heq]
      simp only [record_of_some ha, record_of_some hb]
      exact put_comm hne w e.2 e'.2

end World

/-! ## Two effects -/

namespace Effect

/-- The number that an amount is added to is told from what the cell holds. -/
theorem before_eq {found : Option Stat} {before : Int64}
    (h : found = some (.number before) ∨ (found = none ∧ before = 0)) :
    before = (found.bind Stat.number?).getD 0 := by
  rcases h with rfl | ⟨rfl, rfl⟩
  · rfl
  · rfl

/-- What a cell holds decides on the report. -/
theorem Reports.unique {found : Option Stat} {e : Effect} {a b : Change}
    (ha : e.Reports found a) (hb : e.Reports found b) : a = b := by
  cases ha with
  | appointed => cases hb; rfl
  | unknown => cases hb; rfl
  | kept hfound =>
    cases hb with
    | kept => rfl
    | moved hbefore hafter => simp [hfound] at hbefore
  | @moved _ _ _ before after hbefore hafter =>
    cases hb with
    | kept hfound => simp [hfound] at hbefore
    | @moved _ _ _ before' after' hbefore' hafter' =>
      have hsame : before = before' := (before_eq hbefore).trans (before_eq hbefore').symm
      subst hsame
      rw [Int64.toInt_inj.1 (hafter.trans hafter'.symm)]

/-- An effect reports the same in worlds that agree on its cell. -/
theorem snd_apply_congr {w v : World} {e : Effect}
    (h : ∀ c, e.cell? = some c → w.held c = v.held c) : (apply w e).2 = (apply v e).2 := by
  have hfound : e.cell?.bind w.held = e.cell?.bind v.held := by
    cases hcell : e.cell? with
    | none => rfl
    | some c => exact h c hcell
  have hw := reports_apply w e
  rw [hfound] at hw
  exact hw.unique (reports_apply v e)

/-- No two effects of a list are about one cell. -/
def Apart (es : List Effect) : Prop := (es.filterMap cell?).Nodup

/-- The first effect of such a list is about another cell than each of the others. -/
theorem Apart.cons {e : Effect} {es : List Effect} (h : Apart (e :: es)) :
    (∀ f ∈ es, ∀ c, e.cell? = some c → f.cell? ≠ some c) ∧ Apart es := by
  unfold Apart at h ⊢
  rw [List.filterMap_cons] at h
  cases hcell : e.cell? with
  | none =>
    rw [hcell] at h
    refine ⟨fun f _ c hc => ?_, h⟩
    cases hc
  | some c =>
    rw [hcell] at h
    obtain ⟨hnew, hrest⟩ := List.nodup_cons.1 h
    refine ⟨fun f hf c' hc' hother => hnew ?_, hrest⟩
    cases hc'
    exact List.mem_filterMap.2 ⟨f, hf, hother⟩

/-- After an effect, one on another cell reports what it would report before. -/
theorem snd_apply_apply {e f : Effect} (h : ∀ c, e.cell? = some c → f.cell? ≠ some c) (w : World) :
    (apply (apply w e).1 f).2 = (apply w f).2 := by
  refine snd_apply_congr fun c hc => ?_
  refine (done_apply w e).onlyIn.held c fun hmem => ?_
  exact h c ((reports_apply w e).cell?_eq (Option.mem_toList.1 hmem)) hc

/-- Effects on two cells may be applied in either order. -/
theorem apply_comm {e f : Effect} (h : ∀ c, e.cell? = some c → f.cell? ≠ some c) (w : World) :
    (apply (apply w e).1 f).1 = (apply (apply w f).1 e).1 := by
  have hsymm : ∀ c, f.cell? = some c → e.cell? ≠ some c := fun c hf he => h c he hf
  have hrecords : ∀ c, (apply w e).2.cell? = some c → (apply w f).2.cell? ≠ some c := by
    intro c he hf
    exact h c ((reports_apply w e).cell?_eq he) ((reports_apply w f).cell?_eq hf)
  calc (apply (apply w e).1 f).1
      = (apply w e).1.record (apply (apply w e).1 f).2 := apply_eq_record _ f
    _ = (w.record (apply w e).2).record (apply w f).2 := by
      rw [snd_apply_apply h, apply_eq_record w e]
    _ = (w.record (apply w f).2).record (apply w e).2 := World.record_comm hrecords w
    _ = (apply w f).1.record (apply (apply w f).1 e).2 := by
      rw [snd_apply_apply hsymm, apply_eq_record w f]
    _ = (apply (apply w f).1 e).1 := (apply_eq_record _ e).symm

/-! ## Lists of effects -/

/-- Among effects on different cells, each reports what it would report alone. -/
theorem snd_applyAll_eq_map {es : List Effect} (h : Apart es) (w : World) :
    (applyAll w es).2 = es.map fun e => (apply w e).2 := by
  induction es generalizing w with
  | nil => rfl
  | cons e es ih =>
    obtain ⟨hfirst, hrest⟩ := h.cons
    show (apply w e).2 :: (applyAll (apply w e).1 es).2 = _
    rw [ih hrest, List.map_cons]
    congr 1
    exact List.map_congr_left fun f hf => snd_apply_apply (hfirst f hf) w

/-- Effects on different cells leave the same world in any order. -/
theorem fst_applyAll_perm {es fs : List Effect} (hperm : es.Perm fs) (h : Apart es) (w : World) :
    (applyAll w es).1 = (applyAll w fs).1 := by
  induction hperm generalizing w with
  | nil => rfl
  | cons e hrest ih => exact ih h.cons.2 (apply w e).1
  | swap e f rest =>
    have hcells := h.cons.1 e List.mem_cons_self
    show (applyAll (apply (apply w f).1 e).1 rest).1 = (applyAll (apply (apply w e).1 f).1 rest).1
    rw [apply_comm hcells]
  | trans hfirst hsecond ih ih' =>
    have hmiddle : Apart _ := (hfirst.filterMap cell?).nodup_iff.1 h
    exact (ih h w).trans (ih' hmiddle w)

/-- Effects of which no two are about one cell may be applied in any order. The world that they
leave is the same, and each effect reports the same change, wherever it stands. -/
theorem applyAll_perm {es fs : List Effect} (hcells : Apart es) (hperm : es.Perm fs) (w : World) :
    (applyAll w fs).1 = (applyAll w es).1 ∧
    ∀ (i j : Nat) (e : Effect), es[i]? = some e → fs[j]? = some e →
      ∃ change, (applyAll w es).2[i]? = some change ∧ (applyAll w fs).2[j]? = some change := by
  have hother : Apart fs := (hperm.filterMap cell?).nodup_iff.1 hcells
  refine ⟨(fst_applyAll_perm hperm hcells w).symm, fun i j e hi hj => ⟨(apply w e).2, ?_, ?_⟩⟩
  · rw [snd_applyAll_eq_map hcells, List.getElem?_map, hi, Option.map_some]
  · rw [snd_applyAll_eq_map hother, List.getElem?_map, hj, Option.map_some]

/-- Effects on a region and a faction of one name, on two stats of a region that is new, and on
nothing. -/
def medley : List Effect :=
  [.adjust ⟨.region, "Coast"⟩ "trade" 150, .unknown "eclipse",
    .adjust ⟨.faction, "Coast"⟩ "trade" 7, .appoint "Coast" "Nerys",
    .adjust ⟨.region, "Isle"⟩ "leader" (-5), .adjust ⟨.region, "Isle"⟩ "trade" 5]

theorem applyAll_perm_medley :
    Apart medley ∧ medley.Perm medley.reverse ∧
    (applyAll (.blank 1000) medley.reverse).1 = (applyAll (.blank 1000) medley).1 ∧
    ∃ change, (applyAll (.blank 1000) medley).2[0]? = some change ∧
      (applyAll (.blank 1000) medley.reverse).2[5]? = some change := by
  have hcells : Apart medley := by
    unfold Apart
    decide
  have hperm : medley.Perm medley.reverse := (List.reverse_perm medley).symm
  obtain ⟨hworld, hchanges⟩ := applyAll_perm hcells hperm (.blank 1000)
  exact ⟨hcells, hperm, hworld, hchanges 0 5 _ rfl rfl⟩

end Effect

end Annals
