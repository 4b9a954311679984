import Annals.Proofs.Catalog.Loaded
/-!
# Catalogs without their dead events

Some events of a catalog are dead: nothing outside of them names them, and none of them can begin a
chain. They can be taken out of the catalog, along with categories that are left without events.

* `Catalog.Dead`: ids of events that nothing sets off.
* `Catalog.without`: the catalog without events of some ids.
* `Catalog.Pruned`: the same as a relation that leaves open which empty categories go.
* `Pruned.find?_eq`: every other event is found as before.
* `Loaded.pruned`: a loaded catalog stays one that can be loaded.
-/

namespace Annals

/-! ## Dead events -/

/-- The condition holds in no world: its kind is unknown, or it has a name that stands for
nothing. -/
def Condition.NeverHolds : Condition → Prop
  | .year _ _ => False
  | .stat _ => False
  | .named name => named? name = none
  | .unknown _ => True

/-- A list with such a condition never holds. -/
theorem Condition.allHold_eq_false_of_never {conditions : List Condition} {p : Condition}
    (hp : p ∈ conditions) (hnever : p.NeverHolds) (w : World) : allHold w conditions = false := by
  have hfails : p.holds w = false := by
    cases p with
    | year comparison value => cases hnever
    | stat test => cases hnever
    | named name => simp [holds, show named? name = none from hnever]
    | unknown kind => rfl
  unfold allHold
  exact List.all_eq_false.2 ⟨p, hp, by simp [hfails]⟩

/-- Events of a list that do not have one of some ids. -/
def Definition.others (ids : List String) (events : List Definition) : List Definition :=
  events.filter fun d => !ids.contains d.id

theorem Definition.others_append (ids : List String) (l m : List Definition) :
    others ids (l ++ m) = others ids l ++ others ids m := List.filter_append ..

namespace Catalog

/-- Ids of events that nothing sets off: no other event has one of them as a follow-up, and an event
with such an id is reserved for follow-ups or has a condition that never holds. -/
structure Dead (c : Catalog) (ids : List String) : Prop where
  unnamed : ∀ d ∈ c.events, d.id ∉ ids → ∀ f ∈ d.followUps, f.event ∉ ids
  barred : ∀ d ∈ c.events, d.id ∈ ids →
    d.followUpOnly = true ∨ ∃ p ∈ d.conditions, p.NeverHolds

/-- The catalog without the events of some ids, and without the categories that have lost all their
events. -/
def without (c : Catalog) (ids : List String) : Catalog where
  categories := c.categories.filterMap fun k =>
    let events := Definition.others ids k.events
    if events.isEmpty && !k.events.isEmpty then none else some { k with events }

/-- Categories without the events of some ids. A category that is left without events may go or
stay. -/
inductive Pruned (ids : List String) : List Category → List Category → Prop where
  | nil : Pruned ids [] []
  | keep (k : Category) {ks ks' : List Category} (h : Pruned ids ks ks') :
      Pruned ids (k :: ks) ({ k with events := Definition.others ids k.events } :: ks')
  | drop {k : Category} {ks ks' : List Category} (hnone : Definition.others ids k.events = [])
      (h : Pruned ids ks ks') : Pruned ids (k :: ks) ks'

/-! ## What is left -/

theorem pruned_without (c : Catalog) (ids : List String) :
    Pruned ids c.categories (c.without ids).categories := by
  show Pruned ids c.categories (c.categories.filterMap _)
  induction c.categories with
  | nil => exact .nil
  | cons k ks ih =>
    rw [List.filterMap_cons]
    by_cases hgone : (Definition.others ids k.events).isEmpty && !k.events.isEmpty
    · rw [if_pos hgone]
      have hnone : Definition.others ids k.events = [] := by simp_all
      exact .drop hnone ih
    · rw [if_neg hgone]
      exact .keep k ih

/-- When all events go, all categories may. -/
theorem pruned_empty {ks : List Category} {ids : List String}
    (h : ∀ d ∈ ks.flatMap (·.events), d.id ∈ ids) : Pruned ids ks [] := by
  induction ks with
  | nil => exact .nil
  | cons k ks ih =>
    rw [List.flatMap_cons] at h
    obtain ⟨hfirst, hrest⟩ := List.forall_mem_append.1 h
    refine .drop ?_ (ih hrest)
    unfold Definition.others
    refine List.filter_eq_nil_iff.2 fun d hd => ?_
    simp [hfirst d hd]

namespace Pruned

variable {ids : List String} {c c' : Catalog}

theorem flatMap_events {ks ks' : List Category} (h : Pruned ids ks ks') :
    ks'.flatMap (·.events) = Definition.others ids (ks.flatMap (·.events)) := by
  induction h with
  | nil => rfl
  | keep k h ih =>
    rw [List.flatMap_cons, List.flatMap_cons, Definition.others_append, ih]
  | drop hnone h ih =>
    rw [List.flatMap_cons, Definition.others_append, hnone, List.nil_append, ih]

theorem events_eq (h : Pruned ids c.categories c'.categories) :
    c'.events = Definition.others ids c.events := h.flatMap_events

theorem mem_events (h : Pruned ids c.categories c'.categories) {d : Definition} :
    d ∈ c'.events ↔ d ∈ c.events ∧ d.id ∉ ids := by
  rw [h.events_eq]
  simp [Definition.others]

/-- An event of any other id is found as before. -/
theorem find?_eq (h : Pruned ids c.categories c'.categories) {id : String} (hid : id ∉ ids) :
    c'.find? id = c.find? id := by
  unfold find?
  rw [h.events_eq, Definition.others, List.find?_filter]
  refine congrArg (fun p => List.find? p c.events) (funext fun d => ?_)
  by_cases hd : d.id = id
  · simp [hd, hid]
  · simp [hd]

end Pruned

/-! ## Loading -/

/-- Categories with fewer events are read from a smaller document. -/
theorem Pruned.exists_members {ids : List String} {ks ks' : List Category}
    (h : Pruned ids ks ks') {members : List (String × Json)}
    (hread : List.Forall₂ CategoryReadsAs members ks) :
    ∃ members', List.Forall₂ CategoryReadsAs members' ks' := by
  induction h generalizing members with
  | nil => exact ⟨[], .nil⟩
  | keep k h ih =>
    obtain ⟨m, rest, ⟨events, hm, hname, hevents⟩, hrest, rfl⟩ :=
      List.forall₂_cons_right_iff.1 hread
    obtain ⟨members', hmembers'⟩ := ih hrest
    -- Each event that is kept has a member that it was read from.
    have hkept : ∃ kept, List.Forall₂ (fun d e => ReadsAs m.1 e d)
        (Definition.others ids k.events) kept := by
      refine exists_forall₂_iff.2 fun d hd => ?_
      exact exists_forall₂_iff.1 ⟨_, hevents.flip⟩ d (List.mem_filter.1 hd).1
    obtain ⟨kept, hkept⟩ := hkept
    exact ⟨(m.1, .obj kept) :: members', .cons ⟨kept, rfl, hname, hkept.flip⟩ hmembers'⟩
  | drop hnone h ih =>
    obtain ⟨m, rest, -, hrest, rfl⟩ := List.forall₂_cons_right_iff.1 hread
    exact ih hrest

/-- A loaded catalog without events that the others do not name is one that can be loaded. -/
theorem Loaded.pruned {ids : List String} {c c' : Catalog} (h : c.Loaded)
    (hpruned : Pruned ids c.categories c'.categories)
    (hunnamed : ∀ d ∈ c.events, d.id ∉ ids → ∀ f ∈ d.followUps, f.event ∉ ids) : c'.Loaded := by
  obtain ⟨members, hcategories, -, hdangling⟩ := h.exists_categories
  obtain ⟨members', hcategories'⟩ := hpruned.exists_members hcategories
  have hfresh : Fresh ((Grammar.eventsIn members').map (·.1)) [] := by
    rw [map_fst_eventsIn hcategories', hpruned.events_eq]
    exact ⟨h.nodup_ids.sublist (List.filter_sublist.map _), List.disjoint_nil_right _⟩
  have hdangling' : c'.dangling? = none := by
    rw [dangling?_eq_none_iff] at hdangling ⊢
    intro d hd f hf
    obtain ⟨hd, hid⟩ := hpruned.mem_events.1 hd
    obtain ⟨e, he, hevent⟩ := List.mem_map.1 (hdangling d hd f hf)
    have hkept : e.id ∉ ids := hevent ▸ hunnamed d hd hid f hf
    exact List.mem_map.2 ⟨e, hpruned.mem_events.2 ⟨he, hkept⟩, hevent⟩
  exact ⟨.obj [("events", .obj members')], ofJson_eq_ok.2
    ⟨_, _, rfl, rfl, readCategories_eq_ok.2 ⟨hcategories', hfresh⟩, hdangling'⟩⟩

end Catalog

end Annals
