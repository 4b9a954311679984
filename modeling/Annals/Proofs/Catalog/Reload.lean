import Annals.Event.Encoding
import Annals.Proofs.Catalog.Loaded
/-!
# Catalogs read back from what is written

A catalog can be written as a document again, event by event in the form in which definitions are
written. The loader reads this form as well as its own: every part of an event is read as what it
was, and the checks that the first document has passed are passed again.

* `Condition.read_toJson`, `Effect.read_toJson`, `FollowUp.read_toJson`, `Definition.read_toJson`:
  the parts of an event, and an event.
* `Definition.Regular`: what the loader promises about an event besides its ids.
* `Catalog.ofJson_document`: a loaded catalog is read back from its document.
-/

namespace Annals

/-! ## Parts of an event -/

/-- A comparison is read from its symbol. -/
theorem readComparison_symbol {members : List (String × Json)} {c : Comparison}
    (h : Json.lookup "operator" members = some c.toJson) : readComparison members = .ok c := by
  refine bind_eq_ok.2 ⟨c.symbol, demand_eq_ok.2 (textField_eq_some.2 h), ?_⟩
  simp only [Comparison.ofSymbol?_symbol]

theorem readAmount_toInt {members : List (String × Json)} {n : Int64}
    (h : Json.lookup "value" members = some (.int n.toInt)) : readAmount members = .ok n := by
  refine bind_eq_ok.2 ⟨.int n.toInt, demand_eq_ok.2 (anyField_eq_some.2 ⟨h, by simp⟩), ?_⟩
  simp only [Json.int64?_toInt]

theorem readStat_toJson {members : List (String × Json)} {v : Stat}
    (h : Json.lookup "value" members = some v.toJson) : readStat members = .ok v := by
  cases v with
  | number n =>
    refine bind_eq_ok.2 ⟨.int n.toInt, demand_eq_ok.2 (anyField_eq_some.2 ⟨h, by simp⟩), ?_⟩
    simp only [Json.int64?_toInt]
  | text s =>
    exact bind_eq_ok.2 ⟨.str s, demand_eq_ok.2 (anyField_eq_some.2 ⟨h, by simp⟩), rfl⟩

namespace Condition

/-- The kind of the condition is known. -/
def IsKnown (c : Condition) : Prop := ∀ kind, c ≠ .unknown kind

/-- A condition of a known kind is read from what it is written as. -/
theorem read_toJson {c : Condition} (h : c.IsKnown) : read c.toJson = .ok c := by
  cases c with
  | year comparison value =>
    refine bind_eq_ok.2 ⟨_, rfl, bind_eq_ok.2 ⟨"year", rfl, ?_⟩⟩
    exact bind_eq_ok.2 ⟨_, readComparison_symbol rfl, bind_eq_ok.2 ⟨_, readAmount_toInt rfl, rfl⟩⟩
  | stat test =>
    obtain ⟨side, owner, stat, comparison, value⟩ := test
    cases side with
    | region =>
      refine bind_eq_ok.2 ⟨_, rfl, bind_eq_ok.2 ⟨"region", rfl, ?_⟩⟩
      exact bind_eq_ok.2 ⟨owner, rfl, bind_eq_ok.2 ⟨stat, rfl,
        bind_eq_ok.2 ⟨_, readComparison_symbol rfl, bind_eq_ok.2 ⟨_, readStat_toJson rfl, rfl⟩⟩⟩⟩
    | faction =>
      refine bind_eq_ok.2 ⟨_, rfl, bind_eq_ok.2 ⟨"faction", rfl, ?_⟩⟩
      exact bind_eq_ok.2 ⟨owner, rfl, bind_eq_ok.2 ⟨stat, rfl,
        bind_eq_ok.2 ⟨_, readComparison_symbol rfl, bind_eq_ok.2 ⟨_, readStat_toJson rfl, rfl⟩⟩⟩⟩
  | named name => rfl
  | unknown kind => exact absurd rfl (h kind)

end Condition

namespace Effect

/-- The kind of the effect is known. -/
def IsKnown (e : Effect) : Prop := ∀ kind, e ≠ .unknown kind

/-- An effect of a known kind is read from what it is written as. -/
theorem read_toJson {e : Effect} (h : e.IsKnown) : read e.toJson = .ok e := by
  cases e with
  | adjust target stat amount =>
    obtain ⟨side, name⟩ := target
    cases side with
    | region =>
      refine bind_eq_ok.2 ⟨_, rfl, bind_eq_ok.2 ⟨"modify_stat", rfl, ?_⟩⟩
      exact bind_eq_ok.2 ⟨_, rfl, bind_eq_ok.2 ⟨stat, rfl,
        bind_eq_ok.2 ⟨_, readAmount_toInt rfl, rfl⟩⟩⟩
    | faction =>
      refine bind_eq_ok.2 ⟨_, rfl, bind_eq_ok.2 ⟨"modify_stat", rfl, ?_⟩⟩
      exact bind_eq_ok.2 ⟨_, rfl, bind_eq_ok.2 ⟨stat, rfl,
        bind_eq_ok.2 ⟨_, readAmount_toInt rfl, rfl⟩⟩⟩
  | appoint faction leader => rfl
  | unknown kind => exact absurd rfl (h kind)

end Effect

namespace FollowUp

/-- The chance is one that the loader accepts. -/
def IsLikely (f : FollowUp) : Prop := 0.0 ≤ f.chance ∧ f.chance ≤ 1.0

/-- A follow-up with such a chance is read from what it is written as. -/
theorem read_toJson {f : FollowUp} (h : f.IsLikely) : read f.toJson = .ok f := by
  obtain ⟨event, delay, chance⟩ := f
  have hwithin : (delay.toNat : Int) < 2 ^ 32 := by
    have hlt := delay.toNat_lt
    omega
  have hdelay : Json.int64? (.int delay.toNat) = some (Int64.ofInt delay.toNat) :=
    Json.int64?_eq_some.2 ⟨_, rfl, by omega, by omega, rfl⟩
  have htoInt : (Int64.ofInt delay.toNat).toInt = delay.toNat :=
    Int64.toInt_ofInt_of_le (by omega) (by omega)
  let members : List (String × Json) :=
    [("id", .str event), ("delay", .int delay.toNat), ("probability", .float chance)]
  have hdelayOf : delayOf members = Int64.ofInt delay.toNat := by
    show (Json.int64? (.int delay.toNat)).getD 0 = _
    rw [hdelay, Option.getD_some]
  have hmembers : shape.members (.obj members) = .ok members := by
    refine (Shape.members_eq_ok (by decide)).2 ⟨rfl, ?_⟩
    simp [members, shape, Json.Each, FieldType.admits, Json.str?, Json.float?, hdelay]
  refine read_eq_ok.2 ⟨members, hmembers, rfl, ?_, h, ?_⟩
  · rw [hdelayOf, htoInt]
    exact ⟨by omega, hwithin⟩
  · rw [hdelayOf, htoInt, Int.toNat_natCast, UInt32.ofNat_toNat]
    rfl

end FollowUp

/-! ## Lists of parts -/

/-- What is written one by one is read one by one. -/
theorem forall₂_map_read {α : Type} {read : Json → Except Flaw α} {encode : α → Json}
    {values : List α} (h : ∀ v ∈ values, read (encode v) = .ok v) :
    List.Forall₂ (fun j v => read j = .ok v) (values.map encode) values :=
  List.forall₂_map_left_iff.2 (List.forall₂_same.2 h)

/-! ## Events -/

namespace Definition

/-- What the loader promises about an event of a category, apart from ids. -/
structure Regular (category : String) (d : Definition) : Prop where
  category_eq : d.category = category
  /-- An event that is not reserved for follow-ups has a condition. -/
  conditioned : d.followUpOnly = false → d.conditions ≠ []
  likely : ∀ f ∈ d.followUps, f.IsLikely

/-- The loader keeps its promise. -/
theorem regular_of_read {path id category : String} {j : Json} {d : Definition}
    (h : read path id category j = .ok d) : d.Regular category := by
  obtain ⟨members, hmembers, -, name, -, conditionList, hlist, conditions, hconditions, -, -,
    effects, -, followUps, hfollowUps, rfl⟩ := read_eq_ok.1 h
  obtain ⟨-, -, -, -, -, hflag⟩ := readMembers_eq_ok.1 hmembers
  refine ⟨rfl, fun hfree hempty => ?_, ?_⟩
  · -- Without the flag the list of conditions has a first item, and so have the conditions.
    obtain ⟨rfl, hneeded⟩ := (readConditionList_eq_ok hflag).1 hlist
    have hunreserved : Json.lookup "is_followup" members ≠ some (.bool true) := by
      intro hreserved
      rw [← isReserved_iff hflag] at hreserved
      exact absurd (hfree.symm.trans hreserved) (by decide)
    obtain ⟨value, hvalue, first, rest, rfl⟩ := hneeded hunreserved
    rw [listField_eq_some.2 hvalue] at hconditions
    have hnone : conditions = [] := hempty
    rw [hnone] at hconditions
    cases hconditions
  · refine forall_mem_of_forall₂ hfollowUps fun item f hread => ?_
    obtain ⟨_, -, -, -, hchance, hf⟩ := FollowUp.read_eq_ok.1 hread
    rw [hf]
    exact hchance

/-- An event without details and without unknown parts is read from what it is written as. -/
theorem read_toJson {category : String} {d : Definition} (h : d.Regular category)
    (hdetails : d.details = {}) (hconditions : ∀ c ∈ d.conditions, c.IsKnown)
    (heffects : ∀ e ∈ d.effects, e.IsKnown) (path : String) :
    read path d.id category d.toJson = .ok d := by
  obtain ⟨id, name, description, place, conditions, effects, followUps, followUpOnly, details⟩ := d
  obtain ⟨rfl, hconditioned, hlikely⟩ := h
  obtain rfl : details = {} := hdetails
  let members : List (String × Json) :=
    [("id", .str id), ("name", .str name), ("description", .str description),
      ("category", .str place), ("conditions", .arr (conditions.map Condition.toJson)),
      ("effects", .arr (effects.map Effect.toJson)),
      ("followup_events", .arr (followUps.map FollowUp.toJson)),
      ("is_followup", .bool followUpOnly)]
  have hmembers : readMembers (.obj members) = .ok members := by
    refine readMembers_eq_ok.2 ⟨rfl, ?_, ?_, ?_, ?_, ?_⟩ <;>
      simp [members, Grammar.Texts, Json.Each, Json.NullOr, Json.IsString, Json.IsArray,
        Json.IsBool]
  have hlist : readConditionList members (isReserved members) =
      .ok (conditions.map Condition.toJson) := by
    cases followUpOnly with
    | true => cases conditions <;> rfl
    | false =>
      cases conditions with
      | nil => exact absurd rfl (hconditioned rfl)
      | cons first rest => rfl
  refine read_eq_ok.2 ⟨members, hmembers, ?_, name, rfl, _, hlist, conditions, ?_,
    effects.map Effect.toJson, rfl, effects, ?_, followUps, ?_, rfl⟩
  · intro declared hdeclared
    exact (Option.some.inj hdeclared).symm
  · exact forall₂_map_read fun c hc => Condition.read_toJson (hconditions c hc)
  · exact forall₂_map_read fun e he => Effect.read_toJson (heffects e he)
  · exact forall₂_map_read fun f hf => FollowUp.read_toJson (hlikely f hf)

end Definition

/-! ## Catalogs -/

namespace Catalog

/-- A category as an object of its events, each under its id. -/
def categoryMember (k : Category) : String × Json :=
  (k.name, .obj (k.events.map fun d => (d.id, d.toJson)))

/-- The document of a catalog: its categories and their events in the order of the catalog. -/
def document (c : Catalog) : Json := .obj [("events", .obj (c.categories.map categoryMember))]

/-- The loader keeps its promise for every event of a catalog. -/
theorem Loaded.regular {c : Catalog} (h : c.Loaded) {k : Category} (hk : k ∈ c.categories)
    {d : Definition} (hd : d ∈ k.events) : d.Regular k.name := by
  obtain ⟨members, hcategories, -, -⟩ := h.exists_categories
  have hall : ∀ k ∈ c.categories, ∀ d ∈ k.events, d.Regular k.name := by
    refine forall_mem_of_forall₂ hcategories ?_
    rintro m k ⟨events, -, hname, hevents⟩
    rw [hname]
    exact forall_mem_of_forall₂ hevents fun e d hread => Definition.regular_of_read hread
  exact hall k hk d hd

/-- A catalog that has been loaded is read back from its own document: the same categories in the
same order with the same events, if no event has details and none has a condition or an effect of an
unknown kind. -/
theorem ofJson_document {c : Catalog} (h : c.Loaded) (hdetails : ∀ d ∈ c.events, d.details = {})
    (hconditions : ∀ d ∈ c.events, ∀ p ∈ d.conditions, p.IsKnown)
    (heffects : ∀ d ∈ c.events, ∀ e ∈ d.effects, e.IsKnown) :
    Catalog.ofJson c.document = .ok c := by
  have hmem : ∀ k ∈ c.categories, ∀ d ∈ k.events, d ∈ c.events := fun k hk d hd =>
    List.mem_flatMap.2 ⟨k, hk, hd⟩
  have hread : ∀ k ∈ c.categories, CategoryReadsAs (categoryMember k) k := by
    intro k hk
    refine ⟨_, rfl, rfl, List.forall₂_map_left_iff.2 (List.forall₂_same.2 fun d hd => ?_)⟩
    have hd' := hmem k hk d hd
    exact Definition.read_toJson (h.regular hk hd) (hdetails d hd') (hconditions d hd')
      (heffects d hd') _
  have hcategories : List.Forall₂ CategoryReadsAs (c.categories.map categoryMember) c.categories :=
    List.forall₂_map_left_iff.2 (List.forall₂_same.2 hread)
  -- The keys of the document are the ids, and these differ in a loaded catalog.
  have hfresh : Fresh ((Grammar.eventsIn (c.categories.map categoryMember)).map (·.1)) [] := by
    rw [map_fst_eventsIn hcategories]
    exact ⟨h.nodup_ids, List.disjoint_nil_right _⟩
  obtain ⟨-, -, -, hdangling⟩ := h.exists_categories
  exact ofJson_eq_ok.2 ⟨_, _, rfl, rfl, readCategories_eq_ok.2 ⟨hcategories, hfresh⟩, hdangling⟩

theorem ofJson_document_bells :
    bells.Loaded ∧ (∀ d ∈ bells.events, d.details = {}) ∧
    (∀ d ∈ bells.events, ∀ p ∈ d.conditions, p.IsKnown) ∧
    (∀ d ∈ bells.events, ∀ e ∈ d.effects, e.IsKnown) ∧
    Catalog.ofJson bells.document = .ok bells := by
  have hdetails : ∀ d ∈ bells.events, d.details = {} := by decide
  have hconditions : ∀ d ∈ bells.events, ∀ p ∈ d.conditions, p.IsKnown := by
    simp [bells, events, bell, echo, gale, Condition.IsKnown]
  have heffects : ∀ d ∈ bells.events, ∀ e ∈ d.effects, e.IsKnown := by
    simp [bells, events, bell, echo, gale, Effect.IsKnown]
  exact ⟨bells_loaded, hdetails, hconditions, heffects,
    ofJson_document bells_loaded hdetails hconditions heffects⟩

end Catalog

end Annals
