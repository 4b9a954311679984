import Annals.Entry
import Annals.Proofs.World.Encoding
/-!
# Entries read back from JSON

Every record of the chronicle decodes from what it is encoded as. Where a record leaves members out,
the decoder's defaults put back what was left out: an empty description and details that say
nothing.

* `Origin.restores`, `Details.ofJson?_toJson`, `Occurrence.ofJson?_toJson`: what is told of the
  world.
* `FamilyEvent.ofJson?_toJson`: what is told of a family.
* `Entry.ofJson?_toJson`, `Entry.exact_toJson`: entries, and that their JSON is exact.
-/

namespace Annals

open Json (Exact Restores restores_leaf)

variable {d : Nat}

/-! ## World events -/

namespace Origin

/-- An origin is restored, alone or inside a tagged record. -/
theorem restores (o : Origin) (nested : Bool) :
    Restores (fun j => ofJson? j nested) o.toJson o := by
  intro k hk
  cases o with
  | scan =>
    obtain ⟨rest, r, huntag, hr, -⟩ := hk.exists_tagged (by simp) kinds (by decide) nested []
    simp [ofJson?, huntag, hr]
  | followUp parent =>
    obtain ⟨rest, r, huntag, hr, hfields⟩ :=
      hk.exists_tagged (by simp) kinds (by decide) nested ["parent"]
    have hparent := (hfields _ List.mem_cons_self (by simp)).str
    simp [ofJson?, huntag, hr, hparent]
  | delayed parent year =>
    obtain ⟨rest, r, huntag, hr, hfields⟩ :=
      hk.exists_tagged (by simp) kinds (by decide) nested ["parent", "scheduled_in"]
    simp only [List.forall_mem_cons] at hfields
    obtain ⟨hparent, hyear, -⟩ := hfields
    have hparent' := (hparent (by simp)).str
    have hyear' := (hyear (by simp)).int32
    simp [ofJson?, huntag, hr, hparent', hyear']

theorem exact_toJson (o : Origin) : Exact (d + 1) o.toJson := by
  cases o with
  | scan => exact .obj (by simp [Exact.str])
  | followUp parent => exact .obj (by simp [Exact.str])
  | delayed parent year => exact .obj (by simp [Exact.str, Exact.int32])

end Origin

namespace Details

theorem ofJson?_toJson (d : Details) : ofJson? d.toJson = some d := by
  rcases d with ⟨_ | severity, _ | region, _ | impact, _ | faction⟩ <;> rfl

theorem eq_empty_of_isEmpty {d : Details} (h : d.isEmpty = true) : d = {} := by
  rcases d with ⟨_ | severity, _ | region, _ | impact, _ | faction⟩
  · rfl
  all_goals cases h

theorem exact_toJson (details : Details) : Exact (d + 1) details.toJson := by
  refine .obj fun m hm => ?_
  obtain ⟨e, -, rfl⟩ := List.mem_map.1 hm
  exact .str e.2

end Details

namespace Occurrence

/-- A description or details that are left out are the defaults. -/
theorem ofJson?_toJson (o : Occurrence) (nested : Bool) : ofJson? o.toJson nested = some o := by
  obtain ⟨year, id, name, description, category, effects, origin, details⟩ := o
  have hread :
      ofJson? (toJson ⟨year, id, name, description, category, effects, origin, details⟩) nested =
        (Json.int32? (.int year.toInt)).bind fun year =>
        (Json.list? (Effect.ofJson? · nested) (.arr (effects.map Effect.toJson))).bind
          fun effects =>
        (Origin.ofJson? origin.toJson nested).bind fun origin =>
        (Details.ofJson? details.toJson).bind fun details =>
          some ⟨year, id, name, description, category, effects, origin, details⟩ := by
    -- A member is left out when it is what its default says.
    unfold toJson members Details.member
    by_cases hdescription : description.isEmpty = true
    · obtain rfl := String.isEmpty_iff.1 hdescription
      by_cases hdetails : details.isEmpty = true
      · obtain rfl := Details.eq_empty_of_isEmpty hdetails
        rfl
      · rw [if_neg hdetails]
        rfl
    · rw [if_neg hdescription]
      by_cases hdetails : details.isEmpty = true
      · obtain rfl := Details.eq_empty_of_isEmpty hdetails
        rfl
      · rw [if_neg hdetails]
        rfl
  rw [hread, Json.int32?_toInt, Json.list?_map fun e => (e.restores nested).self,
    (origin.restores nested).self, Details.ofJson?_toJson]
  rfl

theorem name_mem_outline (o : Occurrence) : ∀ m ∈ o.members, m.1 ∈ outline.names := by
  unfold members Details.member
  by_cases hdescription : o.description.isEmpty = true <;>
    by_cases hdetails : o.details.isEmpty = true <;>
    simp [hdescription, hdetails, outline, Json.Outline.names]

theorem exact_members (o : Occurrence) : ∀ m ∈ o.members, Exact (d + 2) m.2 := by
  have heffects : Exact (d + 2) (.arr (o.effects.map Effect.toJson)) := .map Effect.exact_toJson _
  have horigin : Exact (d + 2) o.origin.toJson := o.origin.exact_toJson
  have hdetails : Exact (d + 2) o.details.toJson := o.details.exact_toJson
  unfold members Details.member
  by_cases hdescription : o.description.isEmpty = true <;>
    by_cases hmember : o.details.isEmpty = true <;>
    simp [hdescription, hmember, heffects, horigin, hdetails, Exact.str, Exact.int32]

end Occurrence

/-! ## Family events -/

namespace FamilyEvent

/-- What happened is read from the members behind the kind. -/
theorem deedOfRecord?_members (e : FamilyEvent) :
    deedOfRecord? (deedMembers e.deed).1 ⟨e.members.tail, false⟩ = some e.deed := by
  obtain ⟨year, dynasty, deed⟩ := e
  cases deed with
  | marriage person partner age =>
    exact congrArg (Option.bind · fun n => some (FamilyDeed.marriage person partner n))
      (Json.int32?_toInt age)
  | birth child mother father => rfl
  | death person age =>
    exact congrArg (Option.bind · fun n => some (FamilyDeed.death person n))
      (Json.int32?_toInt age)
  | succession oldMonarch newMonarch kinship isKing => cases kinship <;> rfl
  | noSuccessor monarch isKing => rfl

theorem ofJson?_toJson (e : FamilyEvent) (nested : Bool) : ofJson? e.toJson nested = some e := by
  have hread : ofJson? e.toJson nested =
      (Json.int32? (.int e.year.toInt)).bind fun year =>
      (deedOfRecord? (deedMembers e.deed).1 ⟨e.members.tail, false⟩).bind fun deed =>
        some ⟨year, e.dynasty, deed⟩ := by
    obtain ⟨year, dynasty, deed⟩ := e
    cases deed <;> rfl
  rw [hread, Json.int32?_toInt, deedOfRecord?_members]
  rfl

theorem exact_members (e : FamilyEvent) : ∀ m ∈ e.members, Exact d m.2 := by
  obtain ⟨year, dynasty, deed⟩ := e
  cases deed <;> simp [members, deedMembers, Kinship.toJson, Exact.str, Exact.int32, Exact.bool]

end FamilyEvent

/-! ## Entries -/

namespace Entry

theorem ofJson?_toJson (e : Entry) : ofJson? e.toJson = some e := by
  cases e with
  | world o =>
    -- The tag of an entry is no field of an occurrence, so it can be told from the members.
    have hsource : ∀ m ∈ o.members, m.1 ≠ "source" := fun m hm hname => by
      have hmem := o.name_mem_outline m hm
      rw [hname] at hmem
      exact absurd hmem (by decide)
    have huntag : (toJson (.world o)).untag? "source" kinds false = some ("world", o.toJson) :=
      Json.untag?_cons (by decide) hsource false
    rw [ofJson?, huntag]
    simp [o.ofJson?_toJson]
  | family e =>
    have huntag : (toJson (.family e)).untag? "source" kinds false =
        some ("dynasty", e.toJson) := by
      obtain ⟨year, dynasty, deed⟩ := e
      cases deed <;> rfl
    rw [ofJson?, huntag]
    simp [e.ofJson?_toJson]

theorem exact_toJson (e : Entry) : Exact (d + 3) e.toJson := by
  cases e with
  | world o => exact .obj (List.forall_mem_cons.2 ⟨.str _, o.exact_members⟩)
  | family e => exact .obj (List.forall_mem_cons.2 ⟨.str _, e.exact_members⟩)

end Entry

end Annals
