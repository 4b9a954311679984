import Annals.Proofs.Catalog.Directory
/-!
# The first fault of a catalog

A document is read from its first event to its last one, and what is reported is the first thing
that is wrong. So a fault is decided by the document up to its place: nothing that follows makes a
difference. Follow-ups are looked at only after all events have been read.

* `Stop`, `stopsIn`: the places at which the reading of a document may end, in document order.
* `visit`: what happens at one place; `readCategories_scan`: a document is read by visiting its
  places one after the other.
* `Clean`, `FaultAt`: what is behind the reader when it meets a fault, and which fault it meets.
* `readCategories_eq_error`, `ofJson_eq_error_of_place`: the fault of a document.
* `FirstDangling`, `dangling?_eq_some_iff`: the follow-up that is reported.
* `ofJson_first_fault`: all faults of a document whose events are an object.
-/

namespace Annals.Catalog

open Json (lookup)

/-! ## Places -/

/-- A place at which the reading of a document may end. -/
inductive Stop where
  /-- An event under its id, in a category. -/
  | event (category id : String) (value : Json)
  /-- A category that is no object. -/
  | broken (category : String)

/-- The places in a category. -/
def stopsOf : String × Json → List Stop
  | (category, .obj events) => events.map fun e => .event category e.1 e.2
  | (category, _) => [.broken category]

/-- The places in a document, in document order. -/
def stopsIn (categories : List (String × Json)) : List Stop := categories.flatMap stopsOf

/-- The id and the category of an event; nothing for a category that is no object. -/
def Stop.entry? : Stop → Option (String × String)
  | .event category id _ => some (id, category)
  | .broken _ => none

/-- The ids that have been read, with their categories, when the reader comes to a place. The last
one is in front. -/
def seenAt (before : List Stop) : Seen := (before.filterMap Stop.entry?).reverse

/-- Reading at one place. -/
def visit (seen : Seen) : Stop → Except CatalogFault Seen
  | .broken category => .error (.schema ("events." ++ category) .categoryNotObject)
  | .event category id value => do
    let _ ← Definition.read ("events." ++ category ++ "." ++ id) id category value
    match seen.lookup id with
    | some first => throw (.duplicateId id first category)
    | none => return (id, category) :: seen

/-! ## Reading as visiting -/

/-- The events of a category are visited one after the other. -/
theorem readEvents_scan (category : String) (events : List (String × Json)) (seen : Seen) :
    (readEvents category events seen).map Prod.snd =
      (events.map fun e => Stop.event category e.1 e.2).foldlM visit seen := by
  induction events generalizing seen with
  | nil => rfl
  | cons e rest ih =>
    obtain ⟨id, value⟩ := e
    rw [List.map_cons, List.foldlM_cons]
    cases hread : Definition.read ("events." ++ category ++ "." ++ id) id category value with
    | error fault =>
      simp only [readEvents, visit, hread]
      rfl
    | ok d =>
      cases hseen : seen.lookup id with
      | some first =>
        simp only [readEvents, visit, hread, hseen]
        rfl
      | none =>
        simp only [readEvents, visit, hread, hseen]
        change Except.map Prod.snd (readEvents category rest ((id, category) :: seen) >>= _) =
          List.foldlM visit ((id, category) :: seen) _
        rw [← ih ((id, category) :: seen)]
        cases readEvents category rest ((id, category) :: seen) with
        | error fault => rfl
        | ok read => rfl

/-- The categories of a document are visited one after the other. -/
theorem readCategories_scan (categories : List (String × Json)) (seen : Seen) :
    (readCategories categories seen).map (fun _ => ()) =
      ((stopsIn categories).foldlM visit seen).map (fun _ => ()) := by
  induction categories generalizing seen with
  | nil => rfl
  | cons c rest ih =>
    obtain ⟨category, value⟩ := c
    rw [stopsIn, List.flatMap_cons, List.foldlM_append]
    cases value with
    | obj events =>
      simp only [readCategories]
      change _ = Except.map _ ((events.map fun e => Stop.event category e.1 e.2).foldlM visit seen
        >>= _)
      rw [← readEvents_scan]
      cases readEvents category events seen with
      | error fault => rfl
      | ok read =>
        obtain ⟨ds, seen'⟩ := read
        change Except.map _ (readCategories rest seen' >>= _) =
          Except.map _ ((stopsIn rest).foldlM visit seen')
        rw [← ih seen']
        cases readCategories rest seen' with
        | error fault => rfl
        | ok categories => rfl
    | _ => rfl

/-! ## Paths -/

/-- What goes wrong in a reading is a flaw at a path or below it. -/
def FaultsUnder {α : Type} (path : String) (x : Except CatalogFault α) : Prop :=
  ∀ fault, x = .error fault → ∃ suffix flaw, fault = .schema (path ++ suffix) flaw

section FaultsUnder

variable {α β : Type} {path : String}

theorem faultsUnder_ok (a : α) : FaultsUnder path (.ok a : Except CatalogFault α) := by
  rintro fault ⟨⟩

theorem faultsUnder_schema (flaw : Flaw) :
    FaultsUnder path (.error (.schema path flaw) : Except CatalogFault α) := by
  rintro _ ⟨⟩
  exact ⟨"", flaw, by rw [String.append_empty]⟩

theorem faultsUnder_located (x : Except Flaw α) : FaultsUnder path (located path x) := by
  cases x with
  | error flaw => exact faultsUnder_schema flaw
  | ok a => exact faultsUnder_ok a

theorem FaultsUnder.below {suffix : String} {x : Except CatalogFault α}
    (h : FaultsUnder (path ++ suffix) x) : FaultsUnder path x := by
  intro fault hx
  obtain ⟨more, flaw, hfault⟩ := h fault hx
  exact ⟨suffix ++ more, flaw, by rw [hfault, String.append_assoc]⟩

theorem FaultsUnder.bind {x : Except CatalogFault α} {f : α → Except CatalogFault β}
    (hx : FaultsUnder path x) (hf : ∀ a, FaultsUnder path (f a)) : FaultsUnder path (x >>= f) := by
  cases x with
  | error fault =>
    rintro _ ⟨⟩
    exact hx fault rfl
  | ok a => exact hf a

theorem faultsUnder_readItems (read : Json → Except Flaw α) (index : Nat) (items : List Json) :
    FaultsUnder path (readItems path read index items) := by
  induction items generalizing index with
  | nil => exact faultsUnder_ok []
  | cons item rest ih =>
    exact (faultsUnder_located _).below.below.below.bind fun value =>
      (ih (index + 1)).bind fun values => faultsUnder_ok _

/-- An event is refused for a flaw in it. -/
theorem faultsUnder_read (id category : String) (j : Json) :
    FaultsUnder path (Definition.read path id category j) := by
  unfold Definition.read
  refine (faultsUnder_located _).bind fun members => ?_
  dsimp only
  split
  case' h_1 => split
  case isTrue => exact faultsUnder_schema _
  -- Whether an id is declared or not, the fields are read in the same way.
  all_goals
    refine (faultsUnder_located _).bind fun name => ?_
    refine (faultsUnder_located _).bind fun conditionList => ?_
    refine (faultsUnder_readItems _ _ _).below.bind fun conditions => ?_
    refine (faultsUnder_located _).bind fun effectList => ?_
    refine (faultsUnder_readItems _ _ _).below.bind fun effects => ?_
    refine (faultsUnder_readItems _ _ _).below.bind fun followUps => ?_
    exact faultsUnder_ok _

end FaultsUnder

/-! ## Faults -/

/-- All events so far have been read: each of them is one, and no two have the same id. -/
structure Clean (before : List Stop) : Prop where
  events : ∀ stop ∈ before, ∃ category id value,
    stop = .event category id value ∧ Grammar.IsEvent id value
  unique : ((before.filterMap Stop.entry?).map (·.1)).Nodup

/-- The fault at a place, when the places before it have been passed. -/
inductive FaultAt (before : List Stop) : Stop → CatalogFault → Prop where
  | broken (category : String) :
      FaultAt before (.broken category) (.schema ("events." ++ category) .categoryNotObject)
  /-- The event has a flaw, at its own path or below it. -/
  | flawed {category id suffix : String} {value : Json} {flaw : Flaw}
      (hread : Definition.read ("events." ++ category ++ "." ++ id) id category value =
        .error (.schema ("events." ++ category ++ "." ++ id ++ suffix) flaw)) :
      FaultAt before (.event category id value)
        (.schema ("events." ++ category ++ "." ++ id ++ suffix) flaw)
  /-- The event is as it should be, but an earlier one has its id. -/
  | repeated {first category id : String} {value old : Json} (hvalid : Grammar.IsEvent id value)
      (hold : .event first id old ∈ before) :
      FaultAt before (.event category id value) (.duplicateId id first category)

/-- A place is passed if it is an event with a new id. -/
theorem visit_eq_ok {seen seen' : Seen} {stop : Stop} :
    visit seen stop = .ok seen' ↔ ∃ category id value, stop = .event category id value ∧
      Grammar.IsEvent id value ∧ id ∉ seen.map (·.1) ∧ seen' = (id, category) :: seen := by
  cases stop with
  | broken category => simp [visit]
  | event category id value =>
    simp only [visit, bind_eq_ok, Stop.event.injEq, ← lookup_eq_none_iff]
    constructor
    · rintro ⟨d, hread, h⟩
      refine ⟨category, id, value, ⟨rfl, rfl, rfl⟩, Definition.exists_read_iff.1 ⟨d, hread⟩, ?_⟩
      cases hseen : seen.lookup id with
      | some first =>
        rw [hseen] at h
        cases h
      | none =>
        rw [hseen] at h
        cases h
        exact ⟨rfl, rfl⟩
    · rintro ⟨_, _, _, ⟨rfl, rfl, rfl⟩, hvalid, hseen, rfl⟩
      obtain ⟨d, hread⟩ := Definition.exists_read_iff.2 hvalid
      exact ⟨d, hread, by rw [hseen]; rfl⟩

/-- Places are passed if they are events with new ids, which are remembered. -/
theorem scan_eq_ok {before : List Stop} {seen seen' : Seen} :
    before.foldlM visit seen = .ok seen' ↔
      (∀ stop ∈ before, ∃ category id value,
        stop = .event category id value ∧ Grammar.IsEvent id value) ∧
      Fresh ((before.filterMap Stop.entry?).map (·.1)) (seen.map (·.1)) ∧
      seen' = seenAt before ++ seen := by
  induction before generalizing seen with
  | nil => simp [seenAt, Fresh, pure_eq_ok]
  | cons stop rest ih =>
    rw [List.foldlM_cons, bind_eq_ok, List.forall_mem_cons]
    simp only [visit_eq_ok]
    constructor
    · rintro ⟨_, ⟨category, id, value, rfl, hvalid, hnew, rfl⟩, hrest⟩
      obtain ⟨hevents, hfresh, rfl⟩ := ih.1 hrest
      refine ⟨⟨⟨category, id, value, rfl, hvalid⟩, hevents⟩, fresh_cons.2 ⟨hnew, hfresh⟩, ?_⟩
      simp [seenAt, Stop.entry?]
    · rintro ⟨⟨⟨category, id, value, rfl, hvalid⟩, hevents⟩, hfresh, rfl⟩
      obtain ⟨hnew, hfresh⟩ := fresh_cons.1 hfresh
      refine ⟨_, ⟨category, id, value, rfl, hvalid, hnew, rfl⟩, ih.2 ⟨hevents, hfresh, ?_⟩⟩
      simp [seenAt, Stop.entry?]

theorem scan_eq_ok_iff_clean {before : List Stop} {seen : Seen} :
    before.foldlM visit [] = .ok seen ↔ Clean before ∧ seen = seenAt before := by
  rw [scan_eq_ok, List.append_nil]
  constructor
  · rintro ⟨hevents, hfresh, hseen⟩
    exact ⟨⟨hevents, hfresh.1⟩, hseen⟩
  · rintro ⟨hclean, hseen⟩
    exact ⟨hclean.events, ⟨hclean.unique, List.disjoint_nil_right _⟩, hseen⟩

theorem mem_seenAt {before : List Stop} {id category : String} :
    (id, category) ∈ seenAt before ↔ ∃ value, Stop.event category id value ∈ before := by
  simp only [seenAt, List.mem_reverse, List.mem_filterMap]
  constructor
  · rintro ⟨stop, hmem, hentry⟩
    cases stop with
    | broken => cases hentry
    | event =>
      cases hentry
      exact ⟨_, hmem⟩
  · rintro ⟨value, hmem⟩
    exact ⟨_, hmem, rfl⟩

/-- The category that is remembered for an id is that of the event which has it. -/
theorem Clean.lookup_eq_some {before : List Stop} (h : Clean before) {id first : String} :
    (seenAt before).lookup id = some first ↔ ∃ value, Stop.event first id value ∈ before := by
  have hids : ((seenAt before).map (·.1)).Nodup := by
    rw [seenAt, List.map_reverse, List.nodup_reverse]
    exact h.unique
  rw [lookup_eq_some_iff_mem hids, mem_seenAt]

/-- Behind clean places, the next one is faulty in just these ways. -/
theorem Clean.visit_eq_error {before : List Stop} (h : Clean before) {stop : Stop}
    {fault : CatalogFault} :
    visit (seenAt before) stop = .error fault ↔ FaultAt before stop fault := by
  constructor
  · intro hvisit
    cases stop with
    | broken category =>
      cases hvisit
      exact .broken category
    | event category id value =>
      cases hread : Definition.read ("events." ++ category ++ "." ++ id) id category value with
      | error fault' =>
        obtain ⟨suffix, flaw, rfl⟩ := faultsUnder_read id category value _ hread
        rw [visit, hread] at hvisit
        cases hvisit
        exact .flawed hread
      | ok d =>
        have hvalid := Definition.exists_read_iff.1 ⟨d, hread⟩
        rw [visit, hread] at hvisit
        cases hseen : (seenAt before).lookup id with
        | none =>
          simp only [hseen] at hvisit
          cases hvisit
        | some first =>
          simp only [hseen] at hvisit
          cases hvisit
          obtain ⟨old, hold⟩ := h.lookup_eq_some.1 hseen
          exact .repeated hvalid hold
  · intro hfault
    cases hfault with
    | broken category => rfl
    | flawed hread =>
      rw [visit, hread]
      rfl
    | repeated hvalid hold =>
      obtain ⟨d, hread⟩ := Definition.exists_read_iff.2 hvalid
      rw [visit, hread]
      simp only [h.lookup_eq_some.2 ⟨_, hold⟩]
      rfl

section Readings

variable {ε α β γ : Type} {e : ε}

/-- A fold breaks off at one element, behind others that it gets past. -/
theorem foldlM_eq_error {f : β → α → Except ε β} {l : List α} {b : β} :
    l.foldlM f b = .error e ↔ ∃ before a after b', l = before ++ a :: after ∧
      before.foldlM f b = .ok b' ∧ f b' a = .error e := by
  constructor
  · intro h
    induction l generalizing b with
    | nil => cases h
    | cons a l ih =>
      rw [List.foldlM_cons] at h
      cases hstep : f b a with
      | error e' =>
        rw [hstep] at h
        cases h
        exact ⟨[], a, l, b, rfl, rfl, hstep⟩
      | ok next =>
        rw [hstep] at h
        obtain ⟨before, a', after, b', rfl, hbefore, herror⟩ := ih h
        refine ⟨a :: before, a', after, b', rfl, ?_, herror⟩
        rw [List.foldlM_cons, hstep]
        exact hbefore
  · rintro ⟨before, a, after, b', rfl, hbefore, herror⟩
    rw [List.foldlM_append, hbefore]
    show (a :: after).foldlM f b' = _
    rw [List.foldlM_cons, herror]
    rfl

/-- Readings that agree but for what they yield are refused for the same reason. -/
theorem eq_error_iff_of_map_eq {f : α → γ} {g : β → γ} {x : Except ε α} {y : Except ε β}
    (h : x.map f = y.map g) : x = .error e ↔ y = .error e := by
  cases x <;> cases y <;> simp_all [Except.map]

end Readings

/-- A document is refused at one of its places, behind clean ones. -/
theorem readCategories_eq_error {categories : List (String × Json)} {fault : CatalogFault} :
    readCategories categories [] = .error fault ↔ ∃ before stop after,
      stopsIn categories = before ++ stop :: after ∧ Clean before ∧ FaultAt before stop fault := by
  rw [eq_error_iff_of_map_eq (readCategories_scan categories []), foldlM_eq_error]
  constructor
  · rintro ⟨before, stop, after, seen, hstops, hbefore, hvisit⟩
    obtain ⟨hclean, rfl⟩ := scan_eq_ok_iff_clean.1 hbefore
    exact ⟨before, stop, after, hstops, hclean, hclean.visit_eq_error.1 hvisit⟩
  · rintro ⟨before, stop, after, hstops, hclean, hfault⟩
    exact ⟨before, stop, after, _, hstops, scan_eq_ok_iff_clean.2 ⟨hclean, rfl⟩,
      hclean.visit_eq_error.2 hfault⟩

/-- No place is refused for a follow-up. -/
theorem FaultAt.ne_dangling {before : List Stop} {stop : Stop} {fault : CatalogFault}
    (h : FaultAt before stop fault) (event followUp : String) :
    fault ≠ .danglingFollowUp event followUp := by
  cases h <;> exact nofun

section Documents

variable {members categories : List (String × Json)}
  (hevents : lookup "events" members = some (.obj categories))

include hevents

/-- A document is refused for one of its places, or for a follow-up when all of them are passed. -/
theorem ofJson_eq_error {fault : CatalogFault} : ofJson (.obj members) = .error fault ↔
    readCategories categories [] = .error fault ∨
      ∃ cs event followUp, readCategories categories [] = .ok cs ∧
        (Catalog.mk cs).dangling? = some (event, followUp) ∧
        fault = .danglingFollowUp event followUp := by
  have hmember : Json.member? "events" (.obj members) = some (.obj categories) := hevents
  unfold ofJson
  rw [hmember]
  dsimp only
  cases hread : readCategories categories [] with
  | error fault' => simp [bind, Except.bind]
  | ok cs =>
    cases hdangling : (Catalog.mk cs).dangling? with
    | none => simp [bind, Except.bind, hdangling, pure, Except.pure]
    | some names =>
      obtain ⟨event, followUp⟩ := names
      simp [bind, Except.bind, hdangling, throw, throwThe, MonadExceptOf.throw, eq_comm]

/-- What is wrong at a place is what is wrong with the document. -/
theorem ofJson_eq_error_of_place {before after : List Stop} {stop : Stop} {fault : CatalogFault}
    (hstops : stopsIn categories = before ++ stop :: after) (hclean : Clean before)
    (hfault : FaultAt before stop fault) : ofJson (.obj members) = .error fault :=
  (ofJson_eq_error hevents).2
    (.inl (readCategories_eq_error.2 ⟨before, stop, after, hstops, hclean, hfault⟩))

/-- What is wrong with a document, follow-ups apart, is wrong at a place. -/
theorem exists_place {fault : CatalogFault} (h : ofJson (.obj members) = .error fault)
    (hfault : ∀ event followUp, fault ≠ .danglingFollowUp event followUp) :
    ∃ before stop after, stopsIn categories = before ++ stop :: after ∧ Clean before ∧
      FaultAt before stop fault := by
  rcases (ofJson_eq_error hevents).1 h with hread | ⟨cs, event, followUp, -, -, hdangling⟩
  · exact readCategories_eq_error.1 hread
  · exact absurd hdangling (hfault event followUp)

end Documents

/-! ## Ids that are repeated -/

/-- Two places are events of one id in one category. -/
def Stop.Same (s t : Stop) : Prop :=
  ∃ category id value value', s = .event category id value ∧ t = .event category id value'

theorem mem_stopsOf {c : String × Json} {category id : String} {value : Json}
    (h : Stop.event category id value ∈ stopsOf c) : c.1 = category := by
  unfold stopsOf at h
  split at h
  case h_1 name events =>
    obtain ⟨e, -, he⟩ := List.mem_map.1 h
    cases he
    rfl
  case h_2 => cases List.mem_singleton.1 h

/-- In a document with one member per name, no two events have the same category and id. -/
theorem pairwise_stopsIn {categories : List (String × Json)} (h : (Json.obj categories).Distinct) :
    (stopsIn categories).Pairwise fun s t => ¬s.Same t := by
  cases h with
  | obj hnames hvalues =>
    rw [stopsIn, List.pairwise_flatMap]
    constructor
    · rintro ⟨category, value⟩ hmem
      cases hvalues _ hmem with
      | obj hids _ =>
        refine List.pairwise_map.2 ((List.pairwise_map.1 hids).imp fun hne hsame => ?_)
        obtain ⟨_, id, _, _, hfirst, hsecond⟩ := hsame
        cases hfirst
        exact hne (Stop.event.inj hsecond).2.1.symm
      | _ => exact List.pairwise_singleton _ _
    · refine (List.pairwise_map.1 hnames).imp fun hne s hs t ht hsame => ?_
      obtain ⟨category, _, _, _, rfl, rfl⟩ := hsame
      exact hne ((mem_stopsOf hs).trans (mem_stopsOf ht).symm)

/-- An id that is reported as repeated is that of two events in different categories, each of them
as it should be, and of no other one that was read. -/
theorem exists_twice {categories : List (String × Json)}
    (hdistinct : (Json.obj categories).Distinct) {before after : List Stop} {stop : Stop}
    (hstops : stopsIn categories = before ++ stop :: after)
    (hclean : Clean before) {id first second : String}
    (hfault : FaultAt before stop (.duplicateId id first second)) :
    first ≠ second ∧ ∃ earlier between value value',
      before = earlier ++ .event first id value :: between ∧ stop = .event second id value' ∧
        Grammar.IsEvent id value ∧ Grammar.IsEvent id value' := by
  cases hfault with
  | @repeated _ _ _ value' value hvalid' hmem =>
    obtain ⟨_, _, _, hsame, hvalid⟩ := hclean.events _ hmem
    cases hsame
    obtain ⟨earlier, between, rfl⟩ := List.append_of_mem hmem
    refine ⟨?_, earlier, between, value, value', rfl, rfl, hvalid, hvalid'⟩
    rintro rfl
    have hpairs := pairwise_stopsIn hdistinct
    rw [hstops] at hpairs
    exact (List.pairwise_append.1 hpairs).2.2 _ hmem _ List.mem_cons_self
      ⟨_, id, value, value', rfl, rfl⟩

/-! ## Follow-ups that dangle -/

section FirstWith

variable {α β : Type} {P S : α → Prop} {Q T : β → Prop}

/-- There is a hit, and everything in front of it passes. -/
def FirstWith (passes hits : α → Prop) (l : List α) : Prop :=
  ∃ before a after, l = before ++ a :: after ∧ (∀ x ∈ before, passes x) ∧ hits a

theorem firstWith_cons {a : α} {l : List α} :
    FirstWith P S (a :: l) ↔ S a ∨ P a ∧ FirstWith P S l := by
  constructor
  · rintro ⟨_ | ⟨b, before⟩, a', after, heq, hbefore, hhit⟩
    · cases heq
      exact .inl hhit
    · cases heq
      obtain ⟨hb, hbefore⟩ := List.forall_mem_cons.1 hbefore
      exact .inr ⟨hb, before, a', after, rfl, hbefore, hhit⟩
  · rintro (hhit | ⟨hpass, before, a', after, rfl, hbefore, hhit⟩)
    · exact ⟨[], a, l, rfl, List.forall_mem_nil _, hhit⟩
    · exact ⟨a :: before, a', after, rfl, List.forall_mem_cons.2 ⟨hpass, hbefore⟩, hhit⟩

/-- Counterparts come first together. -/
theorem firstWith_iff_of_forall₂ {R : α → β → Prop} {l : List α} {l' : List β}
    (h : List.Forall₂ R l l') (hPQ : ∀ a b, R a b → (P a ↔ Q b))
    (hST : ∀ a b, R a b → (S a ↔ T b)) : FirstWith P S l ↔ FirstWith Q T l' := by
  induction h with
  | nil => simp [FirstWith]
  | cons hab _ ih => rw [firstWith_cons, firstWith_cons, hPQ _ _ hab, hST _ _ hab, ih]

end FirstWith

/-- What is reported of an event: nothing if its follow-ups are in the catalog, else the first one
that is not. -/
theorem danglingOf_eq_some_iff {ids : List String} {isKnown : String → Bool}
    (hknown : ∀ id, isKnown id = true ↔ id ∈ ids) {d : Definition} {event followUp : String} :
    (d.followUps.find? fun f => !isKnown f.event).map (fun f => (d.id, f.event)) =
        some (event, followUp) ↔
      d.id = event ∧ FirstWith (fun f => f.event ∈ ids)
        (fun f => f.event = followUp ∧ followUp ∉ ids) d.followUps := by
  simp only [Option.map_eq_some_iff, Prod.mk.injEq, List.find?_eq_some_iff_append]
  constructor
  · rintro ⟨f, ⟨hf, before, after, hsplit, hbefore⟩, hid, rfl⟩
    refine ⟨hid, before, f, after, hsplit, fun g hg => (hknown _).1 ?_, rfl, fun hmem => ?_⟩
    · simpa using hbefore g hg
    · simp [(hknown _).2 hmem] at hf
  · rintro ⟨hid, before, f, after, hsplit, hbefore, rfl, hf⟩
    refine ⟨f, ⟨?_, before, after, hsplit, fun g hg => ?_⟩, hid, rfl⟩
    · rw [← hknown] at hf
      simpa using hf
    · simpa [hknown] using hbefore g hg

/-- What is reported is the first event with a follow-up that is not in the catalog, and the first
such follow-up. -/
theorem dangling?_eq_some_iff {c : Catalog} {event followUp : String} :
    c.dangling? = some (event, followUp) ↔
      FirstWith (fun d => ∀ f ∈ d.followUps, f.event ∈ c.events.map (·.id))
        (fun d => d.id = event ∧ FirstWith (fun f => f.event ∈ c.events.map (·.id))
          (fun f => f.event = followUp ∧ followUp ∉ c.events.map (·.id)) d.followUps) c.events := by
  have hknown : ∀ id, c.contains id = true ↔ id ∈ c.events.map (·.id) := by
    intro id
    simp [contains]
  unfold dangling?
  simp only [List.findSome?_eq_some_iff, danglingOf_eq_some_iff hknown]
  unfold FirstWith
  refine exists_congr fun before => exists_congr fun d => exists_congr fun after =>
    and_congr_right fun _ => ?_
  rw [and_comm]
  refine and_congr_left fun _ => forall₂_congr fun d' _ => ?_
  simp [hknown]

/-! ## Documents with follow-ups that dangle -/

/-- All categories are objects, all events are as they should be, and no two have the same id. -/
structure Readable (categories : List (String × Json)) : Prop where
  objects : ∀ c ∈ categories, ∃ events, c.2 = .obj events
  events : ∀ e ∈ Grammar.eventsIn categories, Grammar.IsEvent e.1 e.2
  unique : ((Grammar.eventsIn categories).map (·.1)).Nodup

/-- A follow-up is the id of an event. -/
def Resolved (categories : List (String × Json)) (f : Json) : Prop :=
  ∃ id ∈ (Grammar.eventsIn categories).map (·.1), f.member? "id" = some (.str id)

/-- The first event with a follow-up that is not the id of an event, and the first such follow-up
in its list. -/
def FirstDangling (categories : List (String × Json)) (event followUp : String) : Prop :=
  FirstWith (fun e => ∀ f ∈ Grammar.followUpsIn e.2, Resolved categories f)
    (fun e => e.1 = event ∧ FirstWith (Resolved categories)
      (fun f => f.member? "id" = some (.str followUp) ∧
        followUp ∉ (Grammar.eventsIn categories).map (·.1)) (Grammar.followUpsIn e.2))
    (Grammar.eventsIn categories)

theorem exists_readCategories_iff {categories : List (String × Json)} :
    (∃ cs, readCategories categories [] = .ok cs) ↔ Readable categories := by
  simp only [readCategories_eq_ok, exists_and_right, exists_categories_iff]
  constructor
  · rintro ⟨⟨hobjects, hevents⟩, hfresh⟩
    exact ⟨hobjects, hevents, hfresh.1⟩
  · rintro ⟨hobjects, hevents, hunique⟩
    exact ⟨⟨hobjects, hevents⟩, hunique, List.disjoint_nil_right _⟩

/-- A catalog and its document agree on the follow-up that is reported. -/
theorem dangling?_eq_some_iff_firstDangling {categories : List (String × Json)} {cs : List Category}
    (h : readCategories categories [] = .ok cs) {event followUp : String} :
    (Catalog.mk cs).dangling? = some (event, followUp) ↔
      FirstDangling categories event followUp := by
  obtain ⟨hcategories, -⟩ := readCategories_eq_ok.1 h
  have hids : (Grammar.eventsIn categories).map (·.1) = (Catalog.mk cs).events.map (·.id) :=
    map_fst_eventsIn hcategories
  rw [dangling?_eq_some_iff, ← hids]
  refine (firstWith_iff_of_forall₂ (forall₂_events hcategories) ?_ ?_).symm
  · rintro e d ⟨category, hread⟩
    refine forall_mem_iff_of_forall₂ (Definition.followUps_of_read hread) fun item f hid => ?_
    simp [Resolved, hid]
  · rintro e d ⟨category, hread⟩
    rw [(Definition.id_of_read hread).1]
    refine and_congr_right fun _ => ?_
    refine firstWith_iff_of_forall₂ (Definition.followUps_of_read hread) ?_ ?_
    · intro item f hid
      simp [Resolved, hid]
    · intro item f hid
      simp [hid]

/-- A catalog is refused for a follow-up just if there is nothing else wrong with its document. -/
theorem ofJson_eq_dangling {members categories : List (String × Json)}
    (hevents : lookup "events" members = some (.obj categories)) {event followUp : String} :
    ofJson (.obj members) = .error (.danglingFollowUp event followUp) ↔
      Readable categories ∧ FirstDangling categories event followUp := by
  rw [ofJson_eq_error hevents, ← exists_readCategories_iff]
  constructor
  · rintro (hread | ⟨cs, _, _, hread, hdangling, ⟨⟩⟩)
    · obtain ⟨_, _, _, -, -, hfault⟩ := readCategories_eq_error.1 hread
      exact absurd rfl (hfault.ne_dangling event followUp)
    · exact ⟨⟨cs, hread⟩, (dangling?_eq_some_iff_firstDangling hread).1 hdangling⟩
  · rintro ⟨⟨cs, hread⟩, hfirst⟩
    exact .inr ⟨cs, event, followUp, hread,
      (dangling?_eq_some_iff_firstDangling hread).2 hfirst, rfl⟩

/-- There is such a follow-up just if one is not the id of an event. -/
theorem exists_dangling_iff {members categories : List (String × Json)}
    (hevents : lookup "events" members = some (.obj categories)) :
    (∃ event followUp, ofJson (.obj members) = .error (.danglingFollowUp event followUp)) ↔
      Readable categories ∧ ∃ e ∈ Grammar.eventsIn categories, ∃ f ∈ Grammar.followUpsIn e.2,
        ¬Resolved categories f := by
  have hnames : ∀ cs, readCategories categories [] = .ok cs →
      ((∃ event followUp, (Catalog.mk cs).dangling? = some (event, followUp)) ↔
        ∃ e ∈ Grammar.eventsIn categories, ∃ f ∈ Grammar.followUpsIn e.2,
          ¬Resolved categories f) := by
    intro cs hread
    have hresolved := (resolved_iff (c := ⟨cs⟩) (readCategories_eq_ok.1 hread).1).not
    simp only [not_forall, exists_prop] at hresolved
    unfold Resolved
    rw [← hresolved, ← Ne, Option.ne_none_iff_exists', Prod.exists]
  simp only [ofJson_eq_dangling hevents, exists_and_left]
  refine and_congr_right fun hreadable => ?_
  obtain ⟨cs, hread⟩ := exists_readCategories_iff.2 hreadable
  simp only [← hnames cs hread, dangling?_eq_some_iff_firstDangling hread]

/-! ## All faults -/

/-- The fault of a catalog is the first one in its document. Any other fault than a dangling
follow-up is found at a place behind clean ones, and every document with the same places up to this
one is refused for the same fault, whatever follows and whatever stands beside the events. An id
that is reported as repeated is that of two events of different categories, named in document order,
both of which are as they should be, and no event before the second one is faulty. A follow-up is
reported just if all events are as they should be, no two have the same id, and some follow-up is
not the id of an event; then the first such event is named, and the first such follow-up in its
list. A directory is refused for the same faults. -/
theorem ofJson_first_fault {members categories : List (String × Json)}
    (hevents : lookup "events" members = some (.obj categories))
    (hdistinct : (Json.obj members).Distinct) :
    (∀ fault, (∀ event followUp, fault ≠ .danglingFollowUp event followUp) →
      ofJson (.obj members) = .error fault →
        ∃ before stop, before ++ [stop] <+: stopsIn categories ∧ Clean before ∧
          FaultAt before stop fault ∧
          ∀ members' categories', lookup "events" members' = some (.obj categories') →
            before ++ [stop] <+: stopsIn categories' → ofJson (.obj members') = .error fault) ∧
    (∀ id first second, ofJson (.obj members) = .error (.duplicateId id first second) →
      first ≠ second ∧ ∃ earlier between value value',
        earlier ++ .event first id value :: between ++ [.event second id value'] <+:
            stopsIn categories ∧
          Clean (earlier ++ .event first id value :: between) ∧
          Grammar.IsEvent id value ∧ Grammar.IsEvent id value') ∧
    (∀ event followUp, ofJson (.obj members) = .error (.danglingFollowUp event followUp) ↔
      Readable categories ∧ FirstDangling categories event followUp) ∧
    ((∃ event followUp, ofJson (.obj members) = .error (.danglingFollowUp event followUp)) ↔
      Readable categories ∧ ∃ e ∈ Grammar.eventsIn categories, ∃ f ∈ Grammar.followUpsIn e.2,
        ¬Resolved categories f) ∧
    ∀ fault, Directory.ofJson (.obj members) = .error (.refused fault) ↔
      ofJson (.obj members) = .error fault := by
  refine ⟨fun fault hfault herror => ?_, fun id first second herror => ?_,
    fun event followUp => ofJson_eq_dangling hevents, exists_dangling_iff hevents,
    (Directory.ofJson_agrees hdistinct).eq_refused_iff⟩
  · obtain ⟨before, stop, after, hstops, hclean, hplace⟩ := exists_place hevents herror hfault
    refine ⟨before, stop, ⟨after, by rw [hstops]; simp⟩, hclean, hplace, ?_⟩
    rintro members' categories' hevents' ⟨after', hstops'⟩
    have hshared : stopsIn categories' = before ++ stop :: after' := by
      rw [← hstops', List.append_assoc]
      rfl
    exact ofJson_eq_error_of_place hevents' hshared hclean hplace
  · have hcategories : (Json.obj categories).Distinct := by
      cases hdistinct with
      | obj _ hvalues => exact hvalues _ (Json.mem_of_lookup hevents)
    obtain ⟨before, stop, after, hstops, hclean, hplace⟩ := exists_place hevents herror nofun
    obtain ⟨hne, earlier, between, value, value', rfl, rfl, hvalid, hvalid'⟩ :=
      exists_twice hcategories hstops hclean hplace
    exact ⟨hne, earlier, between, value, value', ⟨after, by rw [hstops]; simp⟩, hclean, hvalid,
      hvalid'⟩

/-- An event without anything that it needs not have. -/
def herald : Json :=
  .obj [("name", .str "Herald"), ("is_followup", .bool true), ("effects", .arr [])]

/-- Two categories with the same event, and flaws behind them. -/
def heralds : List (String × Json) :=
  [("omens", .obj [("herald", herald)]), ("storms", .obj [("herald", herald), ("gale", .null)]),
    ("ruins", .null)]

/-- The repeated id is reported, also in a document that goes on in another way. -/
theorem ofJson_first_fault_heralds :
    ofJson (.obj [("events", .obj heralds)]) = .error (.duplicateId "herald" "omens" "storms") ∧
      ∃ before stop, before ++ [stop] <+: stopsIn heralds ∧ Clean before ∧
        FaultAt before stop (.duplicateId "herald" "omens" "storms") ∧
        ∀ members' categories', lookup "events" members' = some (.obj categories') →
          before ++ [stop] <+: stopsIn categories' →
            ofJson (.obj members') = .error (.duplicateId "herald" "omens" "storms") := by
  have herror : ofJson (.obj [("events", .obj heralds)]) =
      .error (.duplicateId "herald" "omens" "storms") := rfl
  have hdistinct : (Json.obj [("events", .obj heralds)]).Distinct := by
    have hsame :
        (Json.obj [("events", .obj heralds)]).distinct = .obj [("events", .obj heralds)] := rfl
    rw [← hsame]
    exact Json.distinct_distinct _
  exact ⟨herror, (ofJson_first_fault rfl hdistinct).1 _ nofun herror⟩

end Annals.Catalog
