import Annals.Catalog.Directory
import Annals.Proofs.Catalog.Reload
import Annals.Proofs.Json.Distinct
/-!
# The index of a directory

The index of a directory is filled while the categories are being read, and it says where events
are going to stand. So it is compared with the categories that have been read and the one that is
being read behind them. When no object of the document has two members of one name, an id that is
found in the index stands in a category that has been read.

* `Catalog.at?_append`: the places in categories to which one is added.
* `Directory.Tracks`: the index, the categories and the ids that the reader of catalogs keeps tell
  the same.
* `Directory.readEvents_agrees`, `Directory.readCategories_agrees`, `Directory.ofJson_agrees`: a
  directory is read exactly as a catalog is.
* `Directory.Coherent`: what the questions to a directory have to do with its categories.
* `Directory.ofJson_coherent`: a directory that has been read is coherent, and its categories and
  events are those of the document.
-/

namespace Annals

/-! ## Tables -/

/-- A value of a new name makes a table longer by one. -/
theorem Table.length_insert {α : Type} {t : Table α} {name : String} (h : t.get? name = none)
    (value : α) : (t.insert name value).toList.length = t.toList.length + 1 := by
  have hplace : ∀ l : List (String × α), find name l = none →
      (place name value l).length = l.length + 1 := by
    intro l hl
    induction l with
    | nil => rfl
    | cons head rest ih =>
      obtain ⟨key, old⟩ := head
      unfold find at hl
      split at hl
      case isTrue => cases hl
      case isFalse hne =>
        unfold place
        rw [if_neg hne]
        split
        · rfl
        · rw [List.length_cons, ih hl, List.length_cons]
  exact hplace t.entries h

/-! ## Places -/

namespace Catalog

/-- An item of a list with one more at its end. -/
theorem getElem?_concat_eq_some {α : Type} {l : List α} {a b : α} {i : Nat} :
    (l ++ [a])[i]? = some b ↔ l[i]? = some b ∨ i = l.length ∧ a = b := by
  by_cases hlt : i < l.length
  · have hne : i ≠ l.length := Nat.ne_of_lt hlt
    simp [List.getElem?_append_left hlt, hne]
  · by_cases heq : i = l.length
    · simp [heq]
    · have hnone : (l ++ [a])[i]? = none := by
        rw [List.getElem?_eq_none_iff, List.length_append, List.length_singleton]
        omega
      have hnone' : l[i]? = none := List.getElem?_eq_none_iff.2 (Nat.le_of_not_lt hlt)
      simp [hnone, hnone', heq]

theorem at?_eq_some {c : Catalog} {p : Place} {d : Definition} :
    c.at? p = some d ↔ ∃ k, c.categories[p.category]? = some k ∧ k.events[p.event]? = some d := by
  unfold at?
  exact Option.bind_eq_some_iff

/-- With one more category, there are its places as well. -/
theorem at?_append {categories : List Category} {k : Category} {p : Place} {d : Definition} :
    (Catalog.mk (categories ++ [k])).at? p = some d ↔
      (Catalog.mk categories).at? p = some d ∨
        p.category = categories.length ∧ k.events[p.event]? = some d := by
  simp only [at?_eq_some, getElem?_concat_eq_some]
  constructor
  · rintro ⟨k', hk' | ⟨hlast, rfl⟩, hd⟩
    · exact .inl ⟨k', hk', hd⟩
    · exact .inr ⟨hlast, hd⟩
  · rintro (⟨k', hk', hd⟩ | ⟨hlast, hd⟩)
    · exact ⟨k', .inl hk', hd⟩
    · exact ⟨k, .inr ⟨hlast, rfl⟩, hd⟩

/-- An event stands at some place. -/
theorem mem_events_iff {c : Catalog} {d : Definition} : d ∈ c.events ↔ ∃ p, c.at? p = some d := by
  unfold events
  rw [List.mem_flatMap]
  simp only [at?_eq_some]
  constructor
  · rintro ⟨k, hk, hd⟩
    obtain ⟨i, hi⟩ := List.mem_iff_getElem?.1 hk
    obtain ⟨j, hj⟩ := List.mem_iff_getElem?.1 hd
    exact ⟨⟨i, j⟩, k, hi, hj⟩
  · rintro ⟨p, k, hi, hj⟩
    exact ⟨k, List.mem_of_getElem? hi, List.mem_of_getElem? hj⟩

end Catalog

namespace Directory

/-! ## Reading beside a reader of catalogs -/

/-- The index, the categories and the ids that the reader of catalogs keeps tell the same: each id
has the place of its event, and has been seen in the category of that place. -/
structure Tracks (categories : List Category) (places : Table Place) (seen : Catalog.Seen) :
    Prop where
  get?_eq_some : ∀ id p, places.get? id = some p ↔
    ∃ d, (Catalog.mk categories).at? p = some d ∧ d.id = id
  lookup_eq : ∀ id, seen.lookup id =
    (places.get? id).bind fun p => categories[p.category]?.map (·.name)
  size_eq : places.toList.length = (Catalog.mk categories).events.length

namespace Tracks

variable {categories : List Category} {name : String} {events : List Definition}
  {places : Table Place} {seen : Catalog.Seen}

theorem nil : Tracks [] .empty [] where
  get?_eq_some := by
    intro id p
    simp [Catalog.at?]
  lookup_eq := fun _ => rfl
  size_eq := rfl

/-- A category without events has no places. -/
theorem openCategory (h : Tracks categories places seen) (name : String) :
    Tracks (categories ++ [⟨name, []⟩]) places seen where
  get?_eq_some := by
    intro id p
    rw [h.get?_eq_some]
    refine exists_congr fun d => and_congr_left fun _ => ?_
    rw [Catalog.at?_append]
    simp
  lookup_eq := by
    intro id
    rw [h.lookup_eq]
    cases hplace : places.get? id with
    | none => rfl
    | some p =>
      obtain ⟨d, hd, -⟩ := (h.get?_eq_some id p).1 hplace
      obtain ⟨k, hk, -⟩ := Catalog.at?_eq_some.1 hd
      have hlonger : (categories ++ [⟨name, []⟩])[p.category]? = some k :=
        Catalog.getElem?_concat_eq_some.2 (.inl hk)
      rw [Option.bind_some, Option.bind_some, hlonger]
      exact congrArg _ hk
  size_eq := by
    rw [h.size_eq]
    simp [Catalog.events]

/-- An event with a new id is put behind those of the last category. -/
theorem add {d : Definition} (h : Tracks (categories ++ [⟨name, events⟩]) places seen)
    (hnew : places.get? d.id = none) :
    Tracks (categories ++ [⟨name, events ++ [d]⟩])
      (places.insert d.id { category := categories.length, event := events.length })
      ((d.id, name) :: seen) := by
  have hat : ∀ p e, (Catalog.mk (categories ++ [⟨name, events ++ [d]⟩])).at? p = some e ↔
      (Catalog.mk (categories ++ [⟨name, events⟩])).at? p = some e ∨
        p = { category := categories.length, event := events.length } ∧ d = e := by
    intro p e
    obtain ⟨i, j⟩ := p
    simp only [Catalog.at?_append, Catalog.getElem?_concat_eq_some, Place.mk.injEq]
    tauto
  have habsent : ∀ p e, (Catalog.mk (categories ++ [⟨name, events⟩])).at? p = some e →
      e.id ≠ d.id := by
    intro p e he hid
    have hold := (h.get?_eq_some d.id p).2 ⟨e, he, hid⟩
    rw [hnew] at hold
    cases hold
  have hnames : ∀ i : Nat,
      (categories ++ [(⟨name, events ++ [d]⟩ : Category)])[i]?.map Category.name =
        (categories ++ [(⟨name, events⟩ : Category)])[i]?.map Category.name := by
    intro i
    rw [← List.getElem?_map, ← List.getElem?_map, List.map_append, List.map_append]
    rfl
  constructor
  · intro id p
    by_cases hid : id = d.id
    · subst hid
      rw [Table.get?_insert_self, Option.some.injEq]
      constructor
      · rintro rfl
        exact ⟨d, (hat _ d).2 (.inr ⟨rfl, rfl⟩), rfl⟩
      · rintro ⟨e, he, heq⟩
        rcases (hat p e).1 he with hold | ⟨hp, -⟩
        · exact absurd heq (habsent p e hold)
        · exact hp.symm
    · rw [Table.get?_insert_ne hid, h.get?_eq_some]
      constructor
      · rintro ⟨e, he, heq⟩
        exact ⟨e, (hat p e).2 (.inl he), heq⟩
      · rintro ⟨e, he, heq⟩
        rcases (hat p e).1 he with hold | ⟨-, rfl⟩
        · exact ⟨e, hold, heq⟩
        · exact absurd heq.symm hid
  · intro id
    by_cases hid : id = d.id
    · subst hid
      simp [Table.get?_insert_self]
    · have hne : (id == d.id) = false := beq_false_of_ne hid
      rw [Table.get?_insert_ne hid, List.lookup_cons, hne, h.lookup_eq]
      simp only [hnames]
  · rw [Table.length_insert hnew, h.size_eq]
    simp [Catalog.events]
    omega

/-- An id in the index that is not of the last category stands in one of the others, where it has
been seen. -/
theorem exists_category (h : Tracks (categories ++ [⟨name, events⟩]) places seen) {id : String}
    {p : Place} (hplace : places.get? id = some p) (hother : id ∉ events.map (·.id)) :
    ∃ first, categories[p.category]? = some first ∧ seen.lookup id = some first.name := by
  obtain ⟨d, hd, rfl⟩ := (h.get?_eq_some id p).1 hplace
  rcases Catalog.at?_append.1 hd with hd | ⟨-, hlast⟩
  · obtain ⟨first, hfirst, -⟩ := Catalog.at?_eq_some.1 hd
    have hlonger : (categories ++ [⟨name, events⟩])[p.category]? = some first :=
      Catalog.getElem?_concat_eq_some.2 (.inl hfirst)
    refine ⟨first, hfirst, ?_⟩
    rw [h.lookup_eq, hplace, Option.bind_some, hlonger]
    rfl
  · exact absurd (List.mem_map_of_mem (List.mem_of_getElem? hlast)) hother

end Tracks

/-- A directory and a catalog are read with the same outcome. -/
inductive Agrees {α β : Type} (R : α → β → Prop) :
    Except CatalogFault α → Except Halt β → Prop where
  | refused (fault : CatalogFault) : Agrees R (.error fault) (.error (.refused fault))
  | read {a : α} {b : β} (h : R a b) : Agrees R (.ok a) (.ok b)

namespace Agrees

variable {α β γ δ : Type} {R : α → β → Prop} {S : γ → δ → Prop} {x : Except CatalogFault α}
  {y : Except Halt β}

theorem bind {f : α → Except CatalogFault γ} {g : β → Except Halt δ} (h : Agrees R x y)
    (hnext : ∀ a b, R a b → Agrees S (f a) (g b)) : Agrees S (x >>= f) (y >>= g) := by
  cases h with
  | refused fault => exact .refused fault
  | read hab => exact hnext _ _ hab

theorem ne_noCategoryAt (h : Agrees R x y) (number : Nat) : y ≠ .error (.noCategoryAt number) := by
  cases h with
  | refused fault => simp
  | read hab => simp

theorem eq_refused_iff (h : Agrees R x y) (fault : CatalogFault) :
    y = .error (.refused fault) ↔ x = .error fault := by
  cases h with
  | refused fault' => simp
  | read hab => simp

theorem exists_of_eq_ok (h : Agrees R x y) {b : β} (hy : y = .ok b) : ∃ a, x = .ok a ∧ R a b := by
  cases h with
  | refused fault => cases hy
  | read hab =>
    cases hy
    exact ⟨_, rfl, hab⟩

end Agrees

/-- The events of a category are read in the same way when their keys differ. The places of those
that have been read are in the index before the category is in the catalog. -/
theorem readEvents_agrees {categories : List Category} {name : String}
    {members : List (String × Json)} {events : List Definition} {places : Table Place}
    {seen : Catalog.Seen} (h : Tracks (categories ++ [⟨name, events⟩]) places seen)
    (hkeys : (events.map (·.id) ++ members.map (·.1)).Nodup) :
    Agrees (fun r s => s.1 = events ++ r.1 ∧
        Tracks (categories ++ [⟨name, s.1⟩]) s.2 r.2)
      (Catalog.readEvents name members seen)
      (readEvents categories name members events places) := by
  induction members generalizing events places seen with
  | nil => exact .read ⟨(List.append_nil events).symm, h⟩
  | cons member rest ih =>
    obtain ⟨id, value⟩ := member
    have hother : id ∉ events.map (·.id) := by
      intro hmem
      exact (List.nodup_append.1 hkeys).2.2 id hmem id List.mem_cons_self rfl
    unfold Catalog.readEvents readEvents
    cases hread : Definition.read ("events." ++ name ++ "." ++ id) id name value with
    | error fault => exact .refused fault
    | ok d =>
      obtain ⟨rfl, -⟩ := Definition.id_of_read hread
      have hlookup := h.lookup_eq d.id
      cases hplace : places.get? d.id with
      | some p =>
        -- The keys of this category differ, so the place is in a category that has been read.
        obtain ⟨first, hfirst, hseen⟩ := h.exists_category hplace hother
        simp only [Except.mapError, bind, Except.bind, hfirst, hseen]
        exact .refused _
      | none =>
        have hseen : seen.lookup d.id = none := by
          rw [hlookup, hplace]
          rfl
        simp only [Except.mapError, bind, Except.bind, hseen]
        have hkeys' : ((events ++ [d]).map (·.id) ++ rest.map (·.1)).Nodup := by
          rw [List.map_append, List.append_assoc]
          exact hkeys
        have hrest := ih (h.add hplace) hkeys'
        generalize Catalog.readEvents name rest ((d.id, name) :: seen) = x at hrest ⊢
        generalize readEvents categories name rest (events ++ [d]) _ = y at hrest ⊢
        cases hrest with
        | refused fault => exact .refused fault
        | read hboth =>
          obtain ⟨hevents, htracks⟩ := hboth
          exact .read ⟨by rw [hevents, List.append_assoc]; rfl, htracks⟩

/-- Categories are read in the same way. Each of them is opened with no events, so that the index
may have its places while its events are being read. -/
theorem readCategories_agrees {members : List (String × Json)} {d : Directory}
    {seen : Catalog.Seen} (h : Tracks d.catalog.categories d.places seen)
    (hmembers : ∀ m ∈ members, m.2.Distinct) :
    Agrees (fun categories e => e.catalog.categories = d.catalog.categories ++ categories ∧
        ∃ seen', Tracks e.catalog.categories e.places seen')
      (Catalog.readCategories members seen) (readCategories members d) := by
  induction members generalizing d seen with
  | nil => exact .read ⟨(List.append_nil _).symm, seen, h⟩
  | cons member rest ih =>
    obtain ⟨name, value⟩ := member
    obtain ⟨hvalue, hrest⟩ := List.forall_mem_cons.1 hmembers
    unfold Catalog.readCategories readCategories
    cases value with
    | obj events =>
      cases hvalue with
      | obj hnames hvalues =>
        refine (readEvents_agrees (h.openCategory name) hnames).bind ?_
        rintro ⟨events, seen'⟩ ⟨events', places'⟩ ⟨hevents, htracks⟩
        obtain rfl : events' = events := hevents
        have hlater :=
          ih (d := ⟨⟨d.catalog.categories ++ [⟨name, events'⟩]⟩, places'⟩) htracks hrest
        dsimp only
        generalize Catalog.readCategories rest seen' = x at hlater ⊢
        generalize readCategories rest ⟨⟨_⟩, places'⟩ = y at hlater ⊢
        cases hlater with
        | refused fault => exact .refused fault
        | read hboth =>
          obtain ⟨hcategories, htracks'⟩ := hboth
          exact .read ⟨by rw [hcategories, List.append_assoc]; rfl, htracks'⟩
    | _ => exact .refused _

/-- The index of a directory says the same as its categories. -/
def Indexed (d : Directory) : Prop := ∃ seen, Tracks d.catalog.categories d.places seen

/-- An event is found by its id in the index. -/
theorem Indexed.contains_eq {d : Directory} (h : d.Indexed) :
    d.contains = d.catalog.contains := by
  obtain ⟨seen, htracks⟩ := h
  funext id
  rw [Bool.eq_iff_iff]
  unfold contains Catalog.contains
  rw [Option.isSome_iff_exists, List.any_eq_true]
  constructor
  · rintro ⟨p, hp⟩
    obtain ⟨e, he, hid⟩ := (htracks.get?_eq_some id p).1 hp
    exact ⟨e, Catalog.mem_events_iff.2 ⟨p, he⟩, beq_iff_eq.2 hid⟩
  · rintro ⟨e, he, hid⟩
    obtain ⟨p, hp⟩ := Catalog.mem_events_iff.1 he
    exact ⟨p, (htracks.get?_eq_some id p).2 ⟨e, hp, beq_iff_eq.1 hid⟩⟩

theorem Indexed.dangling?_eq {d : Directory} (h : d.Indexed) :
    d.dangling? = d.catalog.dangling? := by
  unfold dangling? Catalog.dangling?
  rw [h.contains_eq]
  rfl

/-- A directory is read from a document as a catalog is, or refused for the same reason. -/
theorem ofJson_agrees {j : Json} (hj : j.Distinct) :
    Agrees (fun c d => d.catalog = c ∧ d.Indexed) (Catalog.ofJson j) (ofJson j) := by
  unfold Catalog.ofJson ofJson
  cases hj with
  | @obj members hnames hvalues =>
    dsimp only
    cases hevents : Json.member? "events" (.obj members) with
    | none => exact .refused _
    | some value =>
      cases hvalues _ (Json.mem_of_lookup hevents) with
      | obj hnames' hmembers =>
        refine (readCategories_agrees .nil hmembers).bind ?_
        rintro categories d ⟨hcategories, hindexed⟩
        have hcatalog : d.catalog = ⟨categories⟩ := congrArg Catalog.mk hcategories
        rw [Indexed.dangling?_eq hindexed, hcatalog]
        cases (⟨categories⟩ : Catalog).dangling? with
        | none => exact .read ⟨hcatalog, hindexed⟩
        | some names => exact .refused _
      | _ => exact .refused _
  | _ => exact .refused _

/-! ## Questions -/

/-- Among categories with different names, each is found by its own. -/
theorem category?_of_mem {c : Catalog} (hnames : (c.categories.map (·.name)).Nodup) {k : Category}
    (hk : k ∈ c.categories) : c.category? k.name = some k := by
  unfold Catalog.category?
  generalize c.categories = categories at hnames hk
  induction categories with
  | nil => cases hk
  | cons first rest ih =>
    obtain ⟨hnew, hrest⟩ := List.nodup_cons.1 hnames
    rcases List.mem_cons.1 hk with rfl | hk
    · simp
    · have hne : first.name ≠ k.name := by
        intro heq
        exact hnew (List.mem_map.2 ⟨k, hk, heq.symm⟩)
      simpa [List.find?_cons, hne] using ih hrest hk

/-- What the questions to a directory have to do with its categories. -/
structure Coherent (d : Directory) : Prop where
  nodup_ids : (d.events.map (·.id)).Nodup
  find?_eq_some : ∀ id e, d.find? id = some e ↔ e ∈ d.events ∧ e.id = id
  contains_iff : ∀ id, d.contains id = true ↔ ∃ e, d.find? id = some e
  category_eq : ∀ e ∈ d.events, ∀ k ∈ d.catalog.categories, e ∈ k.events ↔ e.category = k.name
  size_eq : d.size = d.events.length
  nodup_names : (d.catalog.categories.map (·.name)).Nodup
  eventsOf_eq : ∀ k ∈ d.catalog.categories, d.eventsOf k.name = k.events
  events_eq : d.events = (d.catalog.categories.map (·.name)).flatMap d.eventsOf
  candidatesOf_eq : ∀ name, d.candidatesOf name = (d.eventsOf name).filter fun e => !e.followUpOnly
  conditioned : ∀ e ∈ d.events, e.followUpOnly = false → e.conditions ≠ []
  resolved : ∀ e ∈ d.events, ∀ f ∈ e.followUps, ∃ next, d.find? f.event = some next
  likely : ∀ e ∈ d.events, ∀ f ∈ e.followUps, 0.0 ≤ f.chance ∧ f.chance ≤ 1.0

/-- The events at the places of an index are found by their ids. -/
theorem Indexed.find?_eq_some {d : Directory} (h : d.Indexed) (id : String) (e : Definition) :
    d.find? id = some e ↔ e ∈ d.events ∧ e.id = id := by
  obtain ⟨seen, htracks⟩ := h
  unfold find? events
  rw [Option.bind_eq_some_iff, Catalog.mem_events_iff]
  constructor
  · rintro ⟨p, hp, he⟩
    obtain ⟨e', he', hid⟩ := (htracks.get?_eq_some id p).1 hp
    obtain rfl : e' = e := Option.some.inj (he'.symm.trans he)
    exact ⟨⟨p, he⟩, hid⟩
  · rintro ⟨⟨p, he⟩, hid⟩
    exact ⟨p, (htracks.get?_eq_some id p).2 ⟨e, he, hid⟩, he⟩

/-- A directory whose catalog has been loaded is coherent when the names of its categories differ.
-/
theorem Indexed.coherent {d : Directory} (h : d.Indexed) (hloaded : d.catalog.Loaded)
    (hnames : (d.catalog.categories.map (·.name)).Nodup) : d.Coherent where
  nodup_ids := hloaded.nodup_ids
  find?_eq_some := h.find?_eq_some
  contains_iff := by
    intro id
    simp only [h.find?_eq_some, h.contains_eq, Catalog.contains, List.any_eq_true, beq_iff_eq]
    rfl
  category_eq := by
    intro e he k hk
    obtain ⟨k', hk', he'⟩ := List.mem_flatMap.1 he
    have hlisted := (hloaded.regular hk' he').category_eq
    constructor
    · exact fun hmem => (hloaded.regular hk hmem).category_eq
    · -- The category that lists the event has the name of this one.
      intro hcategory
      have hfound := category?_of_mem hnames hk'
      rw [← hlisted, hcategory, category?_of_mem hnames hk] at hfound
      rw [Option.some.inj hfound]
      exact he'
  size_eq := by
    obtain ⟨seen, htracks⟩ := h
    exact htracks.size_eq
  nodup_names := hnames
  eventsOf_eq := by
    intro k hk
    unfold eventsOf Catalog.eventsOf
    rw [category?_of_mem hnames hk]
    rfl
  events_eq := by
    unfold events Catalog.events
    rw [List.flatMap_map]
    refine List.flatMap_congr fun k hk => ?_
    unfold eventsOf Catalog.eventsOf
    rw [category?_of_mem hnames hk]
    rfl
  candidatesOf_eq := fun _ => rfl
  conditioned := by
    intro e he
    obtain ⟨k, hk, he⟩ := List.mem_flatMap.1 he
    exact (hloaded.regular hk he).conditioned
  resolved := by
    intro e he f hf
    obtain ⟨next, hnext⟩ := Option.isSome_iff_exists.1 (hloaded.find?_followUp he hf)
    have hmem : next ∈ d.events := List.mem_of_find?_eq_some hnext
    have hid : next.id = f.event := by simpa using List.find?_some hnext
    exact ⟨next, (h.find?_eq_some f.event next).2 ⟨hmem, hid⟩⟩
  likely := by
    intro e he f hf
    obtain ⟨k, hk, he⟩ := List.mem_flatMap.1 he
    exact (hloaded.regular hk he).likely f hf

/-- A category lists the members of an object in document order. -/
def Lists (m : String × Json) (k : Category) : Prop :=
  k.name = m.1 ∧ ∃ events, m.2 = .obj events ∧ k.events.map (·.id) = events.map (·.1)

theorem lists_of_readsAs {m : String × Json} {k : Category} (h : Catalog.CategoryReadsAs m k) :
    Lists m k := by
  obtain ⟨events, hm, hname, hevents⟩ := h
  refine ⟨hname, events, hm, ?_⟩
  exact map_eq_map_of_forall₂ hevents.flip fun d e hread => (Definition.id_of_read hread).1

/-- The categories and the events of a catalog keep the order of its document. -/
theorem exists_lists {j : Json} {c : Catalog} (h : Catalog.ofJson j = .ok c) :
    ∃ members categories, j = .obj members ∧
      Json.lookup "events" members = some (.obj categories) ∧
      List.Forall₂ Lists categories c.categories := by
  obtain ⟨members, categories, hj, hevents, hread, -⟩ := Catalog.ofJson_eq_ok.1 h
  obtain ⟨hcategories, -⟩ := Catalog.readCategories_eq_ok.1 hread
  exact ⟨members, categories, hj, hevents, hcategories.imp fun _ _ => lists_of_readsAs⟩

theorem nodup_names {j : Json} (hj : j.Distinct) {c : Catalog} (h : Catalog.ofJson j = .ok c) :
    (c.categories.map (·.name)).Nodup := by
  obtain ⟨members, categories, rfl, hevents, hlists⟩ := exists_lists h
  have hsame : c.categories.map (·.name) = categories.map (·.1) :=
    map_eq_map_of_forall₂ hlists.flip fun k m hlist => hlist.1
  rw [hsame]
  cases hj with
  | obj _ hvalues =>
    cases hvalues _ (Json.mem_of_lookup hevents) with
    | obj hnames _ => exact hnames

theorem coherent_of_ofJson {j : Json} (hj : j.Distinct) {d : Directory} (h : ofJson j = .ok d) :
    d.Coherent := by
  obtain ⟨c, hread, rfl, hindexed⟩ := (ofJson_agrees hj).exists_of_eq_ok h
  exact hindexed.coherent ⟨j, hread⟩ (nodup_names hj hread)

/-- Every directory that is read is coherent. From a document whose objects have one member per
name, a directory is read as the catalog is, or refused for the same reason, so no category is ever
looked up at a number that none has yet. In a directory that has been read the ids differ; an event
is found by its id and by no other, in the category that it names; the index has one entry for each
event; the names of categories differ, and the events are those of the categories one after the
other; candidates are those that are not reserved for follow-ups; each event that is not reserved
has a condition; each follow-up is found, and its chance is one. Categories and events keep the
order of the document. -/
theorem ofJson_coherent (j : Json) (hj : j.Distinct) :
    (∀ number, ofJson j ≠ .error (.noCategoryAt number)) ∧
    (∀ fault, ofJson j = .error (.refused fault) ↔ Catalog.ofJson j = .error fault) ∧
    ∀ d, ofJson j = .ok d → Catalog.ofJson j = .ok d.catalog ∧ d.Coherent ∧
      ∃ members categories, j = .obj members ∧
        Json.lookup "events" members = some (.obj categories) ∧
        List.Forall₂ Lists categories d.catalog.categories := by
  have hagrees := ofJson_agrees hj
  refine ⟨hagrees.ne_noCategoryAt, hagrees.eq_refused_iff, fun d hd => ?_⟩
  obtain ⟨c, hread, rfl, -⟩ := hagrees.exists_of_eq_ok hd
  exact ⟨hread, coherent_of_ofJson hj hd, exists_lists hread⟩

theorem ofJson_coherent_bells :
    Catalog.bellsDocument.Distinct ∧
    ∃ d, ofJson Catalog.bellsDocument = .ok d ∧ d.Coherent ∧ d.size = 3 ∧
      d.find? "gale" = some Catalog.gale ∧ d.find? "storms" = none ∧
      (d.candidatesOf "omens").map (·.id) = ["bell"] := by
  have hdistinct : Catalog.bellsDocument.Distinct := by
    have hsame : Catalog.bellsDocument.distinct = Catalog.bellsDocument := rfl
    rw [← hsame]
    exact Json.distinct_distinct _
  have hall := ofJson_coherent Catalog.bellsDocument hdistinct
  refine ⟨hdistinct, _, rfl, (hall.2.2 _ rfl).2.1, ?_, ?_, ?_, ?_⟩
  · decide +kernel
  · decide +kernel
  · decide +kernel
  · decide +kernel

end Directory

end Annals
