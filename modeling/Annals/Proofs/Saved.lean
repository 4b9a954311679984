import Annals.Family.Encoding
import Annals.Proofs.Entry.Encoding
/-!
# State that is saved and restored

Conditions, effects, owners, origins, snapshots, persons and dynasties can be written as JSON and
read again: from the value as it is or from either of its texts, and whatever the order in which the
members of its objects come.

* `Person.restores`, `Dynasty.restores`: families.
* `Json.Survives`: a value is read again from every reordering, and from both texts of it.
* `state_survives`: all of them do, and so does the world but for its queue.
-/

namespace Annals

open Json (Exact Reordered Restores restores_leaf restores_list)

variable {d : Nat}

/-! ## Persons -/

namespace PersonId

theorem restores (id : PersonId) : Restores ofJson? id.toJson id := by
  refine restores_leaf rfl rfl ?_
  rw [ofJson?, toJson, Json.uint32?_toNat, Option.map_some]

theorem exact_toJson (id : PersonId) : Exact d id.toJson := .uint32 id.index

end PersonId

namespace Person

/-- A mother and a father stay in their order. -/
theorem restores_parents (q : PersonId × PersonId) :
    Restores parentsOfJson? (.arr [q.1.toJson, q.2.toJson]) q := by
  intro k hk
  obtain ⟨items, rfl, hitems⟩ := hk.exists_items
  obtain ⟨mother, rest, hmother, hrest, rfl⟩ := List.forall₂_cons_left_iff.1 hitems
  obtain ⟨father, others, hfather, hothers, rfl⟩ := List.forall₂_cons_left_iff.1 hrest
  obtain rfl := List.forall₂_nil_left_iff.1 hothers
  simp [parentsOfJson?, q.1.restores mother hmother, q.2.restores father hfather]

/-- A person is restored. -/
theorem restores (p : Person) : Restores ofJson? p.toJson p := by
  intro k hk
  obtain ⟨r, hr, hfields⟩ := hk.exists_record (by simp) outline.names
  simp only [List.forall_mem_cons] at hfields
  obtain ⟨hid, hname, hgender, hbirth, hdeath, hhealth, hfaction, hregion, hpartners, hchildren,
    hparents, hmonarch, -⟩ := hfields
  have hid' := (hid (by decide)).need p.id.restores
  have hname' := (hname (by decide)).str
  have hgender' : r.need "gender" Gender.ofJson? = some p.gender :=
    (hgender (by decide)).need (restores_leaf rfl rfl (by cases p.gender <;> rfl))
  have hbirth' := (hbirth (by decide)).int32
  have hdeath' := (hdeath (by decide)).nullable
    (fun y => restores_leaf rfl rfl (Json.int32?_toInt y)) (fun _ => rfl)
  have hhealth' := (hhealth (by decide)).int32
  have hfaction' := (hfaction (by decide)).str
  have hregion' := (hregion (by decide)).str
  have hpartners' := (hpartners (by decide)).need (restores_list PersonId.restores p.partners)
  have hchildren' := (hchildren (by decide)).need (restores_list PersonId.restores p.children)
  have hparents' := (hparents (by decide)).nullable restores_parents (fun _ => rfl)
  have hmonarch' := (hmonarch (by decide)).bool
  simp [ofJson?, hr, hid', hname', hgender', hbirth', hdeath', hhealth', hfaction', hregion',
    hpartners', hchildren', hparents', hmonarch']

theorem exact_toJson (p : Person) : Exact (d + 2) p.toJson := by
  have hids : ∀ ids : List PersonId, Exact (d + 1) (.arr (ids.map PersonId.toJson)) :=
    Exact.map PersonId.exact_toJson
  have hdeath : Exact (d + 1) (Json.orNull (fun y => .int y.toInt) p.deathYear) :=
    .orNull Exact.int32 _
  have hparents : Exact (d + 1) (Json.orNull (fun q => .arr [q.1.toJson, q.2.toJson]) p.parents) :=
    .orNull (fun q : PersonId × PersonId => hids [q.1, q.2]) _
  exact .obj (by simp [Exact.str, Exact.bool, Exact.int32, Gender.toJson,
    PersonId.exact_toJson, hids, hdeath, hparents])

end Person

/-! ## Dynasties -/

namespace Dynasty

/-- A dynasty is restored. -/
theorem restores (d : Dynasty) : Restores ofJson? d.toJson d := by
  intro k hk
  obtain ⟨r, hr, hfields⟩ := hk.exists_record (by simp) outline.names
  simp only [List.forall_mem_cons] at hfields
  obtain ⟨hname, hfounder, hqueen, hmonarch, hfamily, -⟩ := hfields
  have hname' := (hname (by decide)).str
  have hfounder' := (hfounder (by decide)).need d.founder.restores
  have hqueen' := (hqueen (by decide)).need d.foundingQueen.restores
  have hmonarch' := (hmonarch (by decide)).nullable PersonId.restores (fun _ => rfl)
  have hfamily' := (hfamily (by decide)).need (restores_list PersonId.restores d.family)
  simp [ofJson?, hr, hname', hfounder', hqueen', hmonarch', hfamily']

theorem exact_toJson (dynasty : Dynasty) : Exact (d + 2) dynasty.toJson := by
  have hfamily : Exact (d + 1) (.arr (dynasty.family.map PersonId.toJson)) :=
    .map PersonId.exact_toJson _
  have hmonarch : Exact (d + 1) (Json.orNull PersonId.toJson dynasty.monarch) :=
    .orNull PersonId.exact_toJson _
  exact .obj (by simp [Exact.str, PersonId.exact_toJson, hfamily, hmonarch])

end Dynasty

/-! ## All of the state -/

/-- A value is read again from every reordering of its JSON, as it is and from both of its texts. -/
def Json.Survives {α : Type} (ofJson? : Json → Option α) (ofText? : String → Option α) (j : Json)
    (x : α) : Prop :=
  ∀ k, Reordered j k → ofJson? k = some x ∧ ofText? k.compact = some x ∧ ofText? k.pretty = some x

theorem Json.Restores.survives {α : Type} {decode : Json → Option α} {j : Json} {x : α}
    (h : Restores decode j x) (hj : Exact maxDepth j) :
    Survives decode (ofText? .whole decode) j x :=
  fun k hk => ⟨h k hk, h.text hj hk⟩

theorem Json.Restores.survives_record {α : Type} {decode : Json → Option α}
    {members : List (String × Json)} {x : α} (h : Restores decode (.obj members) x)
    (hj : Exact maxDepth (.obj members)) {names : List String}
    (hnames : ∀ m ∈ members, m.1 ∈ names) :
    Survives decode (ofText? (.plain names) decode) (.obj members) x :=
  fun k hk => ⟨h k hk, h.record hnames hj hk⟩

open Json (Survives)

theorem Snapshot.survives (s : Snapshot) :
    Survives ofJson? ofText? s.toJson s :=
  s.restores.survives_record s.exact_toJson (by simp)

/-- The text of a snapshot is read as the world without its queue. -/
theorem World.ofText?_text (w : World) :
    (Snapshot.ofText? w.snapshot.text).map World.ofSnapshot = some { w with queue := [] } := by
  obtain ⟨-, -, htext⟩ := w.snapshot.survives w.snapshot.toJson (.refl _)
  rw [Snapshot.text, htext]
  rfl

/-- State survives in JSON, with the members of every object in any order: conditions, effects and
origins, alone or inside tagged records, owners, snapshots, persons and dynasties. So the world is
restored from the text of its snapshot, but with an empty queue, and it is the same world just if
nothing was waiting in it. -/
theorem state_survives :
    (∀ (c : Condition) (nested : Bool), Survives (fun j => Condition.ofJson? j nested)
        (Json.ofText? .whole fun j => Condition.ofJson? j nested) c.toJson c) ∧
      (∀ (e : Effect) (nested : Bool), Survives (fun j => Effect.ofJson? j nested)
        (Json.ofText? .whole fun j => Effect.ofJson? j nested) e.toJson e) ∧
      (∀ t : Target, Survives Target.ofJson? (Json.ofText? .whole Target.ofJson?) t.toJson t) ∧
      (∀ (o : Origin) (nested : Bool), Survives (fun j => Origin.ofJson? j nested)
        (Json.ofText? .whole fun j => Origin.ofJson? j nested) o.toJson o) ∧
      (∀ s : Snapshot, Survives Snapshot.ofJson? Snapshot.ofText? s.toJson s) ∧
      (∀ p : Person, Survives Person.ofJson? Person.ofText? p.toJson p) ∧
      (∀ d : Dynasty, Survives Dynasty.ofJson? Dynasty.ofText? d.toJson d) ∧
      ∀ w : World,
        (Snapshot.ofText? w.snapshot.text).map World.ofSnapshot = some { w with queue := [] } ∧
          ((Snapshot.ofText? w.snapshot.text).map World.ofSnapshot = some w ↔ w.queue = []) := by
  refine ⟨fun c nested => (c.restores nested).survives c.exact_toJson,
    fun e nested => (e.restores nested).survives e.exact_toJson,
    fun t => t.restores.survives t.exact_toJson,
    fun o nested => (o.restores nested).survives o.exact_toJson,
    Snapshot.survives,
    fun p => p.restores.survives_record p.exact_toJson (by simp),
    fun d => d.restores.survives_record d.exact_toJson (by simp),
    fun w => ⟨w.ofText?_text, ?_⟩⟩
  rw [World.ofText?_text]
  obtain ⟨year, regions, factions, queue⟩ := w
  simp [eq_comm]

/-- The members of a condition are listed backwards, with the kind at the end; a text of digits
stays a text. -/
theorem state_survives_backwards :
    Json.ofText? .whole (fun j => Condition.ofJson? j false)
        (Json.compact (.obj [("value", .str "42"), ("operator", .str "=="), ("stat", .str "mood"),
          ("region", .str "Vale"), ("type", .str "region")])) =
      some (.stat ⟨.region, "Vale", "mood", .eq, .text "42"⟩) := by
  obtain ⟨hconditions, -⟩ := state_survives
  have hbackwards := Reordered.of_perm (List.reverse_perm [("type", .str "region"),
    ("region", .str "Vale"), ("stat", .str "mood"), ("operator", .str "=="),
    ("value", .str "42")]).symm
  obtain ⟨-, hcompact, -⟩ :=
    hconditions (.stat ⟨.region, "Vale", "mood", .eq, .text "42"⟩) false _ hbackwards
  exact hcompact

end Annals
