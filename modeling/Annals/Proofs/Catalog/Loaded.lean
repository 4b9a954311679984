import Annals.Proofs.Catalog.Accepted
/-!
# Catalogs that have been read

What reading a document promises about the catalog it yields.

* `Catalog.Loaded`: a catalog that some document is read as.
* `Loaded.nodup_ids`: no two events have the same id, so an event is found by its id
  (`Loaded.find?_of_mem`).
* `Loaded.find?_followUp`: every follow-up is in the catalog.
-/

namespace Annals

namespace Catalog

/-! ## Loaded catalogs -/

/-- A catalog that has been read from a document. -/
def Loaded (c : Catalog) : Prop := ∃ document, ofJson document = .ok c

/-- The categories of a loaded catalog are read from a document whose keys differ, and no follow-up
is left dangling. -/
theorem Loaded.exists_categories {c : Catalog} (h : c.Loaded) :
    ∃ members, List.Forall₂ CategoryReadsAs members c.categories ∧
      ((Grammar.eventsIn members).map (·.1)).Nodup ∧ c.dangling? = none := by
  obtain ⟨document, h⟩ := h
  obtain ⟨-, members, -, -, hread, hdangling⟩ := ofJson_eq_ok.1 h
  obtain ⟨hcategories, hunique, -⟩ := readCategories_eq_ok.1 hread
  exact ⟨members, hcategories, hunique, hdangling⟩

/-- No two events of a loaded catalog have the same id. -/
theorem Loaded.nodup_ids {c : Catalog} (h : c.Loaded) : (c.events.map (·.id)).Nodup := by
  obtain ⟨members, hcategories, hunique, -⟩ := h.exists_categories
  rw [← map_fst_eventsIn hcategories]
  exact hunique

/-- Among events with different ids, each is found by its own. -/
theorem find?_of_mem {l : List Definition} (hids : (l.map (·.id)).Nodup) {d : Definition}
    (hd : d ∈ l) : (l.find? fun e => e.id == d.id) = some d := by
  induction l with
  | nil => cases hd
  | cons e l ih =>
    obtain ⟨hnew, hrest⟩ := List.nodup_cons.1 hids
    rcases List.mem_cons.1 hd with rfl | hd
    · simp
    · have hne : e.id ≠ d.id := by
        intro heq
        exact hnew (List.mem_map.2 ⟨d, hd, heq.symm⟩)
      simpa [List.find?_cons, hne] using ih hrest hd

/-- An event of a loaded catalog is found by its id. -/
theorem Loaded.find?_of_mem {c : Catalog} (h : c.Loaded) {d : Definition} (hd : d ∈ c.events) :
    c.find? d.id = some d := Catalog.find?_of_mem h.nodup_ids hd

/-- Every follow-up of an event of a loaded catalog is in the catalog. -/
theorem Loaded.find?_followUp {c : Catalog} (h : c.Loaded) {d : Definition} {f : FollowUp}
    (hd : d ∈ c.events) (hf : f ∈ d.followUps) : (c.find? f.event).isSome = true := by
  obtain ⟨members, -, -, hdangling⟩ := h.exists_categories
  obtain ⟨e, he, hid⟩ := List.mem_map.1 (dangling?_eq_none_iff.1 hdangling d hd f hf)
  unfold find?
  rw [List.find?_isSome]
  exact ⟨e, he, beq_iff_eq.2 hid⟩

/-! ## A small catalog -/

/-- A bell that tolls again after two years. -/
def bell : Definition where
  id := "bell"
  name := "Tolling Bell"
  description := ""
  category := "omens"
  conditions := [.year .ge 0]
  effects := [.adjust { side := .region, name := "Coast" } "trade" 5]
  followUps := [{ event := "echo", delay := 0, chance := 1.0 },
    { event := "bell", delay := 2, chance := 1.0 }]
  followUpOnly := false
  details := {}

/-- An echo that calls itself. -/
def echo : Definition where
  id := "echo"
  name := "Echo"
  description := ""
  category := "omens"
  conditions := []
  effects := [.adjust { side := .region, name := "Coast" } "trade" (-1)]
  followUps := [{ event := "echo", delay := 0, chance := 1.0 },
    { event := "gale", delay := 1, chance := 0.5 }]
  followUpOnly := true
  details := {}

/-- A storm that needs the trade which the bell brings. -/
def gale : Definition where
  id := "gale"
  name := "Gale"
  description := ""
  category := "storms"
  conditions := [.stat { side := .region, owner := "Coast", stat := "trade", comparison := .ge
                         value := .number 2 }]
  effects := [.appoint "Sailors" "Storm Queen"]
  followUps := []
  followUpOnly := false
  details := {}

/-- A catalog with follow-ups at once and after years, one of them a cycle. -/
def bells : Catalog :=
  { categories := [{ name := "omens", events := [bell, echo] },
      { name := "storms", events := [gale] }] }

/-- The document of `bells`. -/
def bellsDocument : Json :=
  .obj [("events", .obj [
    ("omens", .obj [
      ("bell", .obj [("name", .str "Tolling Bell"),
        ("conditions", .arr [
          .obj [("type", .str "year"), ("operator", .str ">="), ("value", .int 0)]]),
        ("effects", .arr [.obj [("type", .str "modify_stat"), ("region", .str "Coast"),
          ("stat", .str "trade"), ("value", .int 5)]]),
        ("followup_events", .arr [
          .obj [("id", .str "echo"), ("probability", .float 1.0)],
          .obj [("id", .str "bell"), ("delay", .int 2), ("probability", .float 1.0)]])]),
      ("echo", .obj [("name", .str "Echo"), ("is_followup", .bool true),
        ("effects", .arr [.obj [("type", .str "modify_stat"), ("region", .str "Coast"),
          ("stat", .str "trade"), ("value", .int (-1))]]),
        ("followup_events", .arr [
          .obj [("id", .str "echo"), ("probability", .float 1.0)],
          .obj [("id", .str "gale"), ("delay", .int 1)]])])]),
    ("storms", .obj [
      ("gale", .obj [("name", .str "Gale"),
        ("conditions", .arr [.obj [("type", .str "region"), ("region", .str "Coast"),
          ("stat", .str "trade"), ("operator", .str ">="), ("value", .int 2)]]),
        ("effects", .arr [.obj [("type", .str "change_leader"), ("faction", .str "Sailors"),
          ("new_leader", .str "Storm Queen")]])])])])]

theorem bells_loaded : bells.Loaded := ⟨bellsDocument, rfl⟩

/-- The catalog without categories is read from a document without them. -/
theorem empty_loaded : empty.Loaded := ⟨.obj [("events", .obj [])], rfl⟩

end Catalog

end Annals
