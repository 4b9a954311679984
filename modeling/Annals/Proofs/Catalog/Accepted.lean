import Annals.Proofs.Catalog.Grammar
import Annals.Proofs.Counterparts
/-!
# The grammar of catalogs: events, categories and documents

A document is accepted when its events have the right form, no two of them have the same key, and
every follow-up is the key of an event. Nothing else is accepted.

* `Grammar.IsEvent`, `Grammar.IsCatalog`: events and documents.
* `Definition.exists_read_iff`: exactly the events of the grammar are read.
* `Catalog.readCategories_eq_ok`: categories are read one by one, as long as their keys are fresh.
* `Catalog.resolved_iff`: when follow-ups are left dangling.
* `Catalog.exists_ofJson_iff`: exactly the documents of the grammar are accepted.
-/

namespace Annals

/-! ## Lists of parts -/

section Items

variable {α : Type} {path : String} {read : Json → Except Flaw α}

/-- The items of a list are read one by one. -/
theorem readItems_eq_ok {items : List Json} {index : Nat} {values : List α} :
    readItems path read index items = .ok values ↔
      List.Forall₂ (fun j v => read j = .ok v) items values := by
  induction items generalizing index values with
  | nil => simp [readItems, eq_comm]
  | cons item rest ih =>
    unfold readItems
    simp only [bind_eq_ok, located_eq_ok, ih, List.forall₂_cons_left_iff]
    constructor
    · rintro ⟨value, hvalue, values', hvalues, heq⟩
      cases heq
      exact ⟨value, values', hvalue, hvalues, rfl⟩
    · rintro ⟨value, values', hvalue, hvalues, rfl⟩
      exact ⟨value, hvalue, values', hvalues, rfl⟩

end Items

theorem listField_eq_some {members : List (String × Json)} {field : String} {items : List Json} :
    listField members field = some items ↔ Json.lookup field members = some (.arr items) := by
  unfold listField
  rw [Option.bind_eq_some_iff]
  simp only [Json.arr?_eq_some, exists_eq_right]

/-! ## Events -/

namespace Grammar

open Json

/-- The items of the array in a field are all of some kind. -/
def Items (field : String) (P : Json → Prop) (members : List (String × Json)) : Prop :=
  ∀ items, lookup field members = some (.arr items) → ∀ i ∈ items, P i

/-- What the event of a key demands. An event that is not reserved for follow-ups needs a
condition. -/
structure EventOf (key : String) (members : List (String × Json)) : Prop where
  texts : Texts ["id", "name", "description", "severity", "region", "impact", "faction"] members
  conditionList : Each "conditions" (NullOr IsArray) members
  effectList : Each "effects" (NullOr IsArray) members
  followUpList : Each "followup_events" IsArray members
  reserved : Each "is_followup" IsBool members
  id : First "id" (NullOr (· = .str key)) members
  name : Has "name" IsString members
  conditions : Items "conditions" IsCondition members
  condition : lookup "is_followup" members ≠ some (.bool true) →
    Has "conditions" (fun v => ∃ first rest, v = .arr (first :: rest)) members
  effects : Has "effects" IsArray members ∧ Items "effects" IsEffect members
  followUps : Items "followup_events" IsFollowUp members

/-- The follow-ups of an event. -/
def followUpsIn (j : Json) : List Json := ((j.member? "followup_events").bind arr?).getD []

/-- A value is the event of a key. -/
def IsEvent (key : String) (j : Json) : Prop := ∃ members, j = .obj members ∧ EventOf key members

end Grammar

namespace Definition

/-- Whether an event is reserved for follow-ups. -/
def isReserved (members : List (String × Json)) : Bool :=
  ((Json.lookup "is_followup" members).bind Json.bool?).getD false

theorem read_eq_ok {path id category : String} {j : Json} {d : Definition} :
    Definition.read path id category j = .ok d ↔ ∃ members, readMembers j = .ok members ∧
      (∀ declared, textField members "id" = some declared → declared = id) ∧
      ∃ name, textField members "name" = some name ∧
      ∃ conditionList, readConditionList members (isReserved members) = .ok conditionList ∧
      ∃ conditions, List.Forall₂ (fun j c => Condition.read j = .ok c) conditionList conditions ∧
      ∃ effectList, listField members "effects" = some effectList ∧
      ∃ effects, List.Forall₂ (fun j e => Effect.read j = .ok e) effectList effects ∧
      ∃ followUps, List.Forall₂ (fun j f => FollowUp.read j = .ok f)
        ((listField members "followup_events").getD []) followUps ∧
      d = { id, name, description := (textField members "description").getD "", category
            conditions, effects, followUps, followUpOnly := isReserved members
            details := readDetails members } := by
  unfold Definition.read
  simp only [bind_eq_ok, located_eq_ok]
  refine exists_congr fun members => and_congr_right fun _ => ?_
  -- A declared id is compared with the key before anything else is read.
  cases hid : textField members "id" with
  | none =>
    simp only [bind_eq_ok, located_eq_ok, demand_eq_ok, readItems_eq_ok, pure_eq_ok, reduceCtorEq,
      false_implies, implies_true, true_and]
    rfl
  | some declared =>
    simp only [Option.some.injEq, forall_eq']
    by_cases hkey : declared = id
    · simp only [hkey, ne_eq, not_true_eq_false, if_false, bind_eq_ok, located_eq_ok,
        demand_eq_ok, readItems_eq_ok, pure_eq_ok, true_and]
      rfl
    · rw [if_pos hkey]
      simp only [hkey, false_and, iff_false]
      exact (nomatch ·)

variable {members : List (String × Json)}

theorem readMembers_eq_ok {j : Json} : readMembers j = .ok members ↔ j = .obj members ∧
    Grammar.Texts ["id", "name", "description", "severity", "region", "impact", "faction"] members ∧
    Json.Each "conditions" (Json.NullOr Json.IsArray) members ∧
    Json.Each "effects" (Json.NullOr Json.IsArray) members ∧
    Json.Each "followup_events" Json.IsArray members ∧
    Json.Each "is_followup" Json.IsBool members := by
  have hnames : (shape.map (·.1)).Nodup := by decide
  have hlabels : (detailShape.map (·.1)).Nodup := by decide
  unfold readMembers
  simp only [bind_eq_ok, pure_eq_ok, Shape.members_eq_ok hnames, Shape.check_eq_ok hlabels]
  simp only [shape, detailShape, Details.labels, Grammar.Texts, FieldType.admits_text,
    FieldType.admits_list, FieldType.admits_strictList, FieldType.admits_flag, List.map_cons,
    List.map_nil, List.forall_mem_cons, List.not_mem_nil, false_implies, implies_true, and_true,
    exists_const, and_assoc]
  -- The reader looks at the details last; the grammar has them among the other texts.
  constructor
  · rintro ⟨_, rfl, hid, hname, hdescription, hconditions, heffects, hfollowUps, hreserved,
      hseverity, hregion, himpact, hfaction, rfl⟩
    exact ⟨rfl, hid, hname, hdescription, hseverity, hregion, himpact, hfaction, hconditions,
      heffects, hfollowUps, hreserved⟩
  · rintro ⟨hj, hid, hname, hdescription, hseverity, hregion, himpact, hfaction, hconditions,
      heffects, hfollowUps, hreserved⟩
    exact ⟨_, hj, hid, hname, hdescription, hconditions, heffects, hfollowUps, hreserved,
      hseverity, hregion, himpact, hfaction, rfl⟩

theorem isReserved_iff (htype : Json.Each "is_followup" Json.IsBool members) :
    isReserved members = true ↔ Json.lookup "is_followup" members = some (.bool true) := by
  unfold isReserved
  cases hflag : Json.lookup "is_followup" members with
  | none => simp
  | some value =>
    obtain ⟨b, rfl⟩ := htype.first value hflag
    simp [Json.bool?]

/-- An id that is declared is the key. -/
theorem declared_iff {key : String}
    (htexts : Grammar.Texts ["id", "name", "description", "severity", "region", "impact", "faction"]
      members) :
    (∀ declared, textField members "id" = some declared → declared = key) ↔
      Json.First "id" (Json.NullOr (· = .str key)) members := by
  have htype := (htexts "id" List.mem_cons_self).first
  unfold Json.First at htype ⊢
  simp only [textField_eq_some]
  cases hid : Json.lookup "id" members with
  | none => simp
  | some value => rcases htype value hid with rfl | ⟨s, rfl⟩ <;> simp [Json.NullOr]

/-- A list that is missing has no items. -/
theorem forall_mem_listField_iff {field : String} {P : Json → Prop} :
    (∀ j ∈ (listField members field).getD [], P j) ↔ Grammar.Items field P members := by
  unfold Grammar.Items
  simp only [← listField_eq_some]
  cases listField members field <;> simp

/-- The conditions of an event are there when it needs them. -/
theorem readConditionList_eq_ok (hflag : Json.Each "is_followup" Json.IsBool members)
    {items : List Json} :
    readConditionList members (isReserved members) = .ok items ↔
      items = (listField members "conditions").getD [] ∧
      (Json.lookup "is_followup" members ≠ some (.bool true) →
        Json.Has "conditions" (fun v => ∃ first rest, v = .arr (first :: rest)) members) := by
  have hfilled : Json.Has "conditions" (fun v => ∃ first rest, v = .arr (first :: rest)) members ↔
      ∃ first rest, listField members "conditions" = some (first :: rest) := by
    simp only [listField_eq_some]
    refine ⟨?_, fun ⟨first, rest, h⟩ => ⟨_, h, first, rest, rfl⟩⟩
    rintro ⟨_, h, first, rest, rfl⟩
    exact ⟨first, rest, h⟩
  rw [ne_eq, ← isReserved_iff hflag, Bool.not_eq_true, hfilled]
  unfold readConditionList
  -- Three cases for the list: it is missing, it is empty, or it has an item.
  cases isReserved members <;> rcases listField members "conditions" with _ | _ | ⟨first, rest⟩ <;>
    simp [eq_comm]

theorem exists_read_iff {path id category : String} {j : Json} :
    (∃ d, Definition.read path id category j = .ok d) ↔ Grammar.IsEvent id j := by
  constructor
  · rintro ⟨d, h⟩
    obtain ⟨members, hmembers, hid, name, hname, conditionList, hlist, conditions, hconditions,
      effectList, heffectList, effects, heffects, followUps, hfollowUps, -⟩ := read_eq_ok.1 h
    obtain ⟨hj, htexts, hconditionType, heffectType, hfollowUpType, hflag⟩ :=
      readMembers_eq_ok.1 hmembers
    obtain ⟨rfl, hneeded⟩ := (readConditionList_eq_ok hflag).1 hlist
    refine ⟨members, hj, htexts, hconditionType, heffectType, hfollowUpType, hflag, ?id,
      exists_textField_iff.1 ⟨name, hname⟩, ?conditions, hneeded, ⟨?effectList, ?effects⟩,
      ?followUps⟩
    case id => exact (declared_iff htexts).1 hid
    case conditions =>
      have hall := exists_forall₂_iff.1 ⟨_, hconditions⟩
      simpa only [Condition.exists_read_iff, forall_mem_listField_iff] using hall
    case effectList => exact ⟨_, listField_eq_some.1 heffectList, _, rfl⟩
    case effects =>
      have hall := exists_forall₂_iff.1 ⟨_, heffects⟩
      intro items hitems j hj
      rw [listField_eq_some.1 heffectList] at hitems
      cases hitems
      exact Effect.exists_read_iff.1 (hall j hj)
    case followUps =>
      have hall := exists_forall₂_iff.1 ⟨_, hfollowUps⟩
      simpa only [FollowUp.exists_read_iff, forall_mem_listField_iff] using hall
  · rintro ⟨members, hj, h⟩
    obtain ⟨name, hname⟩ := exists_textField_iff.2 h.name
    obtain ⟨_, heffectList, effectList, rfl⟩ := h.effects.1
    have hconditions : ∀ j ∈ (listField members "conditions").getD [],
        ∃ c, Condition.read j = .ok c := by
      simpa only [Condition.exists_read_iff, forall_mem_listField_iff] using h.conditions
    have heffects : ∀ j ∈ effectList, ∃ e, Effect.read j = .ok e := by
      simpa only [Effect.exists_read_iff] using h.effects.2 effectList heffectList
    have hfollowUps : ∀ j ∈ (listField members "followup_events").getD [],
        ∃ f, FollowUp.read j = .ok f := by
      simpa only [FollowUp.exists_read_iff, forall_mem_listField_iff] using h.followUps
    obtain ⟨conditions, hconditions⟩ := exists_forall₂_iff.2 hconditions
    obtain ⟨effects, heffects⟩ := exists_forall₂_iff.2 heffects
    obtain ⟨followUps, hfollowUps⟩ := exists_forall₂_iff.2 hfollowUps
    refine ⟨_, read_eq_ok.2 ⟨members, ?members, (declared_iff h.texts).2 h.id, name, hname, _,
      ?needed, conditions, hconditions, effectList, listField_eq_some.2 heffectList, effects,
      heffects, followUps, hfollowUps, rfl⟩⟩
    case members =>
      exact readMembers_eq_ok.2
        ⟨hj, h.texts, h.conditionList, h.effectList, h.followUpList, h.reserved⟩
    case needed => exact (readConditionList_eq_ok h.reserved).2 ⟨rfl, h.condition⟩

/-- An event that is read has the id and the category of its place. -/
theorem id_of_read {path id category : String} {j : Json} {d : Definition}
    (h : Definition.read path id category j = .ok d) : d.id = id ∧ d.category = category := by
  obtain ⟨members, -, -, name, -, conditionList, -, conditions, -, effectList, -, effects, -,
    followUps, -, rfl⟩ := read_eq_ok.1 h
  exact ⟨rfl, rfl⟩

/-- The follow-ups of an event are those of its list, each under its id. -/
theorem followUps_of_read {path id category : String} {j : Json} {d : Definition}
    (h : Definition.read path id category j = .ok d) :
    List.Forall₂ (fun item f => item.member? "id" = some (.str f.event))
      (Grammar.followUpsIn j) d.followUps := by
  obtain ⟨members, hmembers, -, name, -, conditionList, -, conditions, -, effectList, -, effects, -,
    followUps, hfollowUps, rfl⟩ := read_eq_ok.1 h
  obtain ⟨rfl, -⟩ := readMembers_eq_ok.1 hmembers
  exact hfollowUps.imp fun item f hread => FollowUp.id_of_read hread

end Definition

/-! ## Catalogs -/

namespace Grammar

open Json

/-- The events of a document that has categories, each with its key. -/
def eventsIn (categories : List (String × Json)) : List (String × Json) :=
  categories.flatMap fun c => c.2.obj?.getD []

/-- What the categories of a document demand: all keys of events differ, and every follow-up is the
key of an event. -/
structure CategoriesOf (categories : List (String × Json)) : Prop where
  objects : ∀ c ∈ categories, ∃ events, c.2 = .obj events
  events : ∀ e ∈ eventsIn categories, IsEvent e.1 e.2
  unique : ((eventsIn categories).map (·.1)).Nodup
  resolved : ∀ e ∈ eventsIn categories, ∀ f ∈ followUpsIn e.2,
    ∃ id ∈ (eventsIn categories).map (·.1), f.member? "id" = some (.str id)

/-- A value is a catalog. -/
def IsCatalog (j : Json) : Prop :=
  ∃ members categories, j = .obj members ∧ lookup "events" members = some (.obj categories) ∧
    CategoriesOf categories

end Grammar

namespace Catalog

/-- What the member of a category is read as. -/
def ReadsAs (category : String) (m : String × Json) (d : Definition) : Prop :=
  Definition.read ("events." ++ category ++ "." ++ m.1) m.1 category m.2 = .ok d

theorem lookup_eq_none_iff {seen : Seen} {id : String} :
    seen.lookup id = none ↔ id ∉ seen.map (·.1) := by
  simp only [List.lookup_eq_none_iff, bne_iff_ne, List.mem_map, not_exists, not_and]
  exact forall₂_congr fun _ _ => ne_comm

/-- Keys that differ from each other and from those seen before. -/
def Fresh (keys seen : List String) : Prop := keys.Nodup ∧ keys.Disjoint seen

theorem fresh_cons {key : String} {keys seen : List String} :
    Fresh (key :: keys) seen ↔ key ∉ seen ∧ Fresh keys (key :: seen) := by
  unfold Fresh
  rw [List.nodup_cons, List.disjoint_cons_left, List.disjoint_cons_right]
  tauto

theorem fresh_append {keys more seen : List String} :
    Fresh (keys ++ more) seen ↔ Fresh keys seen ∧ Fresh more (keys.reverse ++ seen) := by
  induction keys generalizing seen with
  | nil => simp [Fresh]
  | cons key keys ih =>
    rw [List.cons_append, fresh_cons, fresh_cons, ih, and_assoc, List.reverse_cons,
      List.append_assoc]
    rfl

/-- The events of a category are read one by one when their keys are fresh. -/
theorem readEvents_eq_ok {category : String} {members : List (String × Json)} {seen seen' : Seen}
    {ds : List Definition} :
    readEvents category members seen = .ok (ds, seen') ↔
      List.Forall₂ (ReadsAs category) members ds ∧
      Fresh (members.map (·.1)) (seen.map (·.1)) ∧
      seen' = (members.map fun m => (m.1, category)).reverse ++ seen := by
  induction members generalizing seen ds with
  | nil => simp [readEvents, Fresh, eq_comm]
  | cons member rest ih =>
    obtain ⟨id, value⟩ := member
    have hadded : (((id, value) :: rest).map fun m => (m.1, category)).reverse ++ seen =
        (rest.map fun m => (m.1, category)).reverse ++ (id, category) :: seen := by
      simp
    unfold readEvents
    rw [hadded, List.map_cons, fresh_cons, ← lookup_eq_none_iff]
    simp only [bind_eq_ok, List.forall₂_cons_left_iff]
    constructor
    · rintro ⟨d, hread, h⟩
      -- A key that has been seen before ends the reading.
      cases hseen : seen.lookup id with
      | some first =>
        rw [hseen] at h
        cases h
      | none =>
        rw [hseen] at h
        obtain ⟨⟨ds', seen''⟩, hrest, h⟩ := bind_eq_ok.1 h
        cases h
        obtain ⟨hds, hfresh, hadd⟩ := ih.1 hrest
        exact ⟨⟨d, ds', hread, hds, rfl⟩, ⟨rfl, hfresh⟩, hadd⟩
    · rintro ⟨⟨d, ds', hread, hds, rfl⟩, ⟨hseen, hfresh⟩, hadd⟩
      refine ⟨d, hread, ?_⟩
      rw [hseen]
      exact bind_eq_ok.2 ⟨_, ih.2 ⟨hds, hfresh, hadd⟩, rfl⟩

/-- What a category is read as. -/
def CategoryReadsAs (m : String × Json) (c : Category) : Prop :=
  ∃ events, m.2 = .obj events ∧ c.name = m.1 ∧ List.Forall₂ (ReadsAs m.1) events c.events

/-- Categories are read one by one when the keys of all their events are fresh. -/
theorem readCategories_eq_ok {members : List (String × Json)} {seen : Seen}
    {categories : List Category} :
    readCategories members seen = .ok categories ↔
      List.Forall₂ CategoryReadsAs members categories ∧
      Fresh ((Grammar.eventsIn members).map (·.1)) (seen.map (·.1)) := by
  induction members generalizing seen categories with
  | nil => simp [readCategories, Grammar.eventsIn, Fresh, eq_comm]
  | cons member rest ih =>
    obtain ⟨name, value⟩ := member
    cases value with
    | obj events =>
      have hsplit : Grammar.eventsIn ((name, .obj events) :: rest) =
          events ++ Grammar.eventsIn rest := rfl
      have hseen : ∀ seen : Seen,
          ((events.map fun m => (m.1, name)).reverse ++ seen).map (·.1) =
            (events.map (·.1)).reverse ++ seen.map (·.1) := by
        intro seen
        rw [List.map_append, List.map_reverse, List.map_map]
        rfl
      -- The keys of this category are fresh, and those of the rest are so beside them as well.
      unfold readCategories
      rw [hsplit, List.map_append, fresh_append, ← hseen]
      simp only [bind_eq_ok, List.forall₂_cons_left_iff, Prod.exists, readEvents_eq_ok, pure_eq_ok]
      constructor
      · rintro ⟨ds, seen', ⟨hds, hfresh, rfl⟩, cs, hrest, rfl⟩
        obtain ⟨hcs, hlater⟩ := ih.1 hrest
        exact ⟨⟨_, cs, ⟨events, rfl, rfl, hds⟩, hcs, rfl⟩, hfresh, hlater⟩
      · rintro ⟨⟨⟨_, ds⟩, cs, ⟨_, hevents, rfl, hds⟩, hcs, rfl⟩, hfresh, hlater⟩
        cases hevents
        exact ⟨ds, _, ⟨hds, hfresh, rfl⟩, cs, ih.2 ⟨hcs, hlater⟩, rfl⟩
    | _ =>
      refine ⟨(nomatch ·), ?_⟩
      rintro ⟨hcs, -⟩
      obtain ⟨_, _, ⟨_, hobject, -⟩, -⟩ := List.forall₂_cons_left_iff.1 hcs
      cases hobject

/-- The events of a catalog are those of its document, in the same order. -/
theorem forall₂_events {members : List (String × Json)} {categories : List Category}
    (h : List.Forall₂ CategoryReadsAs members categories) :
    List.Forall₂ (fun m d => ∃ category, ReadsAs category m d) (Grammar.eventsIn members)
      (categories.flatMap (·.events)) := by
  induction h with
  | nil => exact .nil
  | @cons m c members categories hcategory _ ih =>
    obtain ⟨events, hm, -, hevents⟩ := hcategory
    have hsplit : Grammar.eventsIn (m :: members) = events ++ Grammar.eventsIn members := by
      unfold Grammar.eventsIn
      rw [List.flatMap_cons, hm]
      rfl
    rw [hsplit, List.flatMap_cons]
    exact List.rel_append (hevents.imp fun _ _ hread => ⟨_, hread⟩) ih

theorem dangling?_eq_none_iff {c : Catalog} :
    c.dangling? = none ↔ ∀ d ∈ c.events, ∀ f ∈ d.followUps, f.event ∈ c.events.map (·.id) := by
  unfold dangling? contains
  simp [List.findSome?_eq_none_iff]

/-- The ids of a catalog are the keys of its document. -/
theorem map_fst_eventsIn {members : List (String × Json)} {c : Catalog}
    (h : List.Forall₂ CategoryReadsAs members c.categories) :
    (Grammar.eventsIn members).map (·.1) = c.events.map (·.id) := by
  refine map_eq_map_of_forall₂ (forall₂_events h) fun m d hread => ?_
  obtain ⟨category, hread⟩ := hread
  exact (Definition.id_of_read hread).1.symm

/-- No follow-up of a catalog is left dangling when every follow-up of its document is the key of an
event. -/
theorem resolved_iff {members : List (String × Json)} {c : Catalog}
    (h : List.Forall₂ CategoryReadsAs members c.categories) :
    c.dangling? = none ↔ ∀ e ∈ Grammar.eventsIn members, ∀ f ∈ Grammar.followUpsIn e.2,
      ∃ id ∈ (Grammar.eventsIn members).map (·.1), f.member? "id" = some (.str id) := by
  rw [dangling?_eq_none_iff, map_fst_eventsIn h]
  refine (forall_mem_iff_of_forall₂ (forall₂_events h) fun e d hread => ?_).symm
  obtain ⟨category, hread⟩ := hread
  refine forall_mem_iff_of_forall₂ (Definition.followUps_of_read hread) fun item f hid => ?_
  rw [hid]
  simp

theorem exists_categories_iff {members : List (String × Json)} :
    (∃ categories, List.Forall₂ CategoryReadsAs members categories) ↔
      (∀ m ∈ members, ∃ events, m.2 = .obj events) ∧
      ∀ e ∈ Grammar.eventsIn members, Grammar.IsEvent e.1 e.2 := by
  have hcategory : ∀ m, (∃ c, CategoryReadsAs m c) ↔
      ∃ events, m.2 = .obj events ∧ ∀ e ∈ events, Grammar.IsEvent e.1 e.2 := by
    intro m
    constructor
    · rintro ⟨c, events, hm, -, hevents⟩
      refine ⟨events, hm, fun e he => ?_⟩
      obtain ⟨d, hread⟩ := exists_forall₂_iff.1 ⟨_, hevents⟩ e he
      exact Definition.exists_read_iff.1 ⟨d, hread⟩
    · rintro ⟨events, hm, hall⟩
      have hread : ∀ e ∈ events, ∃ d, ReadsAs m.1 e d := fun e he =>
        Definition.exists_read_iff.2 (hall e he)
      obtain ⟨ds, hds⟩ := exists_forall₂_iff.2 hread
      exact ⟨⟨m.1, ds⟩, events, hm, rfl, hds⟩
  rw [exists_forall₂_iff]
  simp only [hcategory]
  constructor
  · intro h
    refine ⟨fun m hm => ?_, fun e he => ?_⟩
    · obtain ⟨events, hobject, -⟩ := h m hm
      exact ⟨events, hobject⟩
    · obtain ⟨m, hm, he⟩ := List.mem_flatMap.1 he
      obtain ⟨events, hobject, hall⟩ := h m hm
      rw [hobject] at he
      exact hall e he
  · rintro ⟨hobjects, hall⟩ m hm
    obtain ⟨events, hobject⟩ := hobjects m hm
    refine ⟨events, hobject, fun e he => hall e (List.mem_flatMap.2 ⟨m, hm, ?_⟩)⟩
    rw [hobject]
    exact he

theorem ofJson_eq_ok {j : Json} {c : Catalog} :
    ofJson j = .ok c ↔ ∃ members categories, j = .obj members ∧
      Json.lookup "events" members = some (.obj categories) ∧
      readCategories categories [] = .ok c.categories ∧ c.dangling? = none := by
  constructor
  · intro h
    unfold ofJson at h
    split at h
    case h_2 => cases h
    case h_1 members =>
      split at h
      case h_1 => cases h
      case h_3 => cases h
      case h_2 categories hevents =>
        obtain ⟨cs, hread, h⟩ := bind_eq_ok.1 h
        dsimp only at h
        split at h
        case h_1 => cases h
        case h_2 hresolved =>
          cases h
          exact ⟨members, categories, rfl, hevents, hread, hresolved⟩
  · rintro ⟨members, categories, rfl, hevents, hread, hresolved⟩
    have hmember : Json.member? "events" (.obj members) = some (.obj categories) := hevents
    unfold ofJson
    rw [hmember]
    refine bind_eq_ok.2 ⟨_, hread, ?_⟩
    dsimp only
    rw [hresolved]
    rfl

/-- The loader accepts exactly the documents of the grammar. -/
theorem exists_ofJson_iff (j : Json) :
    (∃ c, Catalog.ofJson j = .ok c) ↔ Grammar.IsCatalog j := by
  have hfresh : ∀ {categories},
      Fresh ((Grammar.eventsIn categories).map (·.1)) (([] : Seen).map (·.1)) ↔
        ((Grammar.eventsIn categories).map (·.1)).Nodup :=
    and_iff_left (List.disjoint_nil_right _)
  simp only [ofJson_eq_ok, readCategories_eq_ok, hfresh]
  constructor
  · rintro ⟨c, members, categories, hj, hevents, ⟨hcategories, hunique⟩, hresolved⟩
    obtain ⟨hobjects, hall⟩ := exists_categories_iff.1 ⟨_, hcategories⟩
    exact ⟨members, categories, hj, hevents, hobjects, hall, hunique,
      (resolved_iff hcategories).1 hresolved⟩
  · rintro ⟨members, categories, hj, hevents, h⟩
    obtain ⟨cs, hcategories⟩ := exists_categories_iff.2 ⟨h.objects, h.events⟩
    exact ⟨⟨cs⟩, members, categories, hj, hevents, ⟨hcategories, h.unique⟩,
      (resolved_iff (c := ⟨cs⟩) hcategories).2 h.resolved⟩

end Catalog

end Annals
