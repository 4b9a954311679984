import Annals.Json.Record
import Annals.Family.Dynasty
import Annals.Family.Event
/-!
# Families in JSON

How persons, dynasties and family events are written as JSON, and how they are read. The text of a
person or a dynasty is read by its `outline`: members that are no fields are passed over.
-/

namespace Annals

namespace PersonId

/-- An id as its number. -/
def toJson (id : PersonId) : Json := .int id.index.toNat

/-- Reads an id. -/
def ofJson? (j : Json) : Option PersonId := j.uint32?.map fun index => { index }

end PersonId

namespace Gender

/-- The gender of a label. -/
def ofLabel? (label : String) : Option Gender :=
  if label = "male" then some .male else if label = "female" then some .female else none

/-- A gender as its label. -/
def toJson (g : Gender) : Json := .str g.label

/-- Reads a gender. -/
def ofJson? (j : Json) : Option Gender := j.word? ofLabel? false

end Gender

namespace Person

/-- A mother and a father as an array of two. -/
def parentsOfJson? : Json → Option (PersonId × PersonId)
  | .arr [mother, father] => do return (← PersonId.ofJson? mother, ← PersonId.ofJson? father)
  | _ => none

/-- A person as an object. -/
def toJson (p : Person) : Json :=
  .obj [("id", p.id.toJson), ("name", .str p.name), ("gender", p.gender.toJson),
    ("birth_year", .int p.birthYear.toInt),
    ("death_year", Json.orNull (fun y => .int y.toInt) p.deathYear),
    ("health", .int p.health.toInt), ("faction", .str p.faction), ("region", .str p.region),
    ("partners", .arr (p.partners.map PersonId.toJson)),
    ("children", .arr (p.children.map PersonId.toJson)),
    ("parents", Json.orNull (fun q => .arr [q.1.toJson, q.2.toJson]) p.parents),
    ("was_monarch", .bool p.wasMonarch)]

/-- The fields of a person. -/
def outline : Json.Outline :=
  .plain ["id", "name", "gender", "birth_year", "death_year", "health", "faction", "region",
    "partners", "children", "parents", "was_monarch"]

/-- Reads a person. Only the year of death and the parents may be left out. -/
def ofJson? (j : Json) : Option Person := do
  let r ← Json.Record.ofJson? outline.names false j
  return {
    id := ← r.need "id" PersonId.ofJson?
    name := ← r.need "name" Json.str?
    gender := ← r.need "gender" Gender.ofJson?
    birthYear := ← r.need "birth_year" Json.int32?
    deathYear := ← r.nullable "death_year" Json.int32?
    health := ← r.need "health" Json.int32?
    faction := ← r.need "faction" Json.str?
    region := ← r.need "region" Json.str?
    partners := ← r.need "partners" (Json.list? PersonId.ofJson?)
    children := ← r.need "children" (Json.list? PersonId.ofJson?)
    parents := ← r.nullable "parents" parentsOfJson?
    wasMonarch := ← r.need "was_monarch" Json.bool? }

/-- Reads a person from a text. -/
def ofText? (text : String) : Option Person := Json.ofText? outline ofJson? text

end Person

namespace Dynasty

/-- A dynasty as an object. -/
def toJson (d : Dynasty) : Json :=
  .obj [("name", .str d.name), ("founder", d.founder.toJson),
    ("founding_queen", d.foundingQueen.toJson),
    ("monarch", Json.orNull PersonId.toJson d.monarch),
    ("family", .arr (d.family.map PersonId.toJson))]

/-- The fields of a dynasty. -/
def outline : Json.Outline := .plain ["name", "founder", "founding_queen", "monarch", "family"]

/-- Reads a dynasty. Only the monarch may be left out. -/
def ofJson? (j : Json) : Option Dynasty := do
  let r ← Json.Record.ofJson? outline.names false j
  return {
    name := ← r.need "name" Json.str?
    founder := ← r.need "founder" PersonId.ofJson?
    foundingQueen := ← r.need "founding_queen" PersonId.ofJson?
    monarch := ← r.nullable "monarch" PersonId.ofJson?
    family := ← r.need "family" (Json.list? PersonId.ofJson?) }

/-- Reads a dynasty from a text. -/
def ofText? (text : String) : Option Dynasty := Json.ofText? outline ofJson? text

end Dynasty

namespace Kinship

/-- The kinship of a label. -/
def ofLabel? (label : String) : Option Kinship :=
  if label = "child" then some .child else if label = "sibling" then some .sibling else none

/-- A kinship as its label. -/
def toJson (k : Kinship) : Json := .str k.label

/-- A kinship occurs inside family events only. -/
def ofJson? (j : Json) : Option Kinship := j.word? ofLabel? true

end Kinship

namespace FamilyEvent

/-- The kinds of family events. -/
def kinds : List String := ["marriage", "birth", "death", "succession", "no_successor"]

/-- The kind of a deed and the members for what happened. -/
def deedMembers : FamilyDeed → String × List (String × Json)
  | .marriage person partner age =>
    ("marriage", [("person", .str person), ("partner", .str partner), ("age", .int age.toInt)])
  | .birth child mother father =>
    ("birth", [("child", .str child), ("mother", .str mother), ("father", .str father)])
  | .death person age => ("death", [("person", .str person), ("age", .int age.toInt)])
  | .succession oldMonarch newMonarch kinship isKing =>
    ("succession", [("old_monarch", .str oldMonarch), ("new_monarch", .str newMonarch),
      ("relation", kinship.toJson), ("is_king", .bool isKing)])
  | .noSuccessor monarch isKing =>
    ("no_successor", [("monarch", .str monarch), ("is_king", .bool isKing)])

/-- The members of a family event, in their order. -/
def members (e : FamilyEvent) : List (String × Json) :=
  let (kind, deed) := deedMembers e.deed
  [("kind", .str kind), ("year", .int e.year.toInt), ("dynasty", .str e.dynasty)] ++ deed

/-- A family event as an object tagged with its kind. -/
def toJson (e : FamilyEvent) : Json := .obj e.members

/-- The fields of each kind after year and dynasty. -/
def deedFields : String → List String
  | "marriage" => ["person", "partner", "age"]
  | "birth" => ["child", "mother", "father"]
  | "death" => ["person", "age"]
  | "succession" => ["old_monarch", "new_monarch", "relation", "is_king"]
  | _ => ["monarch", "is_king"]

/-- What happened, from the fields of a kind. -/
def deedOfRecord? (kind : String) (r : Json.Record) : Option FamilyDeed :=
  match kind with
  | "marriage" => do
    return .marriage (← r.need "person" Json.str?) (← r.need "partner" Json.str?)
      (← r.need "age" Json.int32?)
  | "birth" => do
    return .birth (← r.need "child" Json.str?) (← r.need "mother" Json.str?)
      (← r.need "father" Json.str?)
  | "death" => do return .death (← r.need "person" Json.str?) (← r.need "age" Json.int32?)
  | "succession" => do
    return .succession (← r.need "old_monarch" Json.str?) (← r.need "new_monarch" Json.str?)
      (← r.need "relation" Kinship.ofJson?) (← r.need "is_king" Json.bool?)
  | _ => do return .noSuccessor (← r.need "monarch" Json.str?) (← r.need "is_king" Json.bool?)

/-- Reads a family event; every field must be there. -/
def ofJson? (j : Json) (nested : Bool := false) : Option FamilyEvent := do
  let (kind, rest) ← j.untag? "kind" kinds nested
  let r ← Json.Record.ofJson? (["year", "dynasty"] ++ deedFields kind) false rest
  return {
    year := ← r.need "year" Json.int32?
    dynasty := ← r.need "dynasty" Json.str?
    deed := ← deedOfRecord? kind r }

end FamilyEvent

end Annals
