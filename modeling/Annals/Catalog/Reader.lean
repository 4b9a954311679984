import Annals.Json.Parser
import Annals.Catalog
import Annals.Catalog.Fault
/-!
# Reading catalogs

A catalog document is `events → category → id → event`. It is read event by event in document
order, and the first fault is reported. Within an object the types of all fields are checked first,
in document order; then the fields are demanded one by one. That every follow-up is in the catalog
is checked last, so that events may refer to later ones and to other categories.

* `Condition.read`, `Effect.read`, `FollowUp.read`: the parts of an event.
* `Definition.read`: an event.
* `Catalog.ofJson`, `Catalog.ofText`: a whole catalog.
-/

namespace Annals

/-! ## Fields -/

/-- The types of the fields of an object, by name; other fields are not looked at. -/
abbrev Shape := List (String × FieldType)

namespace Shape

/-- Checks the fields of an object in document order. -/
def check (shape : Shape) : List (String × Json) → Except Flaw Unit
  | [] => .ok ()
  | (name, value) :: rest =>
    match shape.lookup name with
    | some type => if type.admits value then check shape rest else .error (.wrongType value type)
    | none => check shape rest

/-- The members of an object whose fields have the right types. -/
def members (shape : Shape) : Json → Except Flaw (List (String × Json))
  | .obj members => (shape.check members).map fun _ => members
  | _ => .error .notObject

end Shape

/-- A field that must be there. -/
def demand {α : Type} (field : String) : Option α → Except Flaw α
  | some value => .ok value
  | none => .error (.missing field)

/-- The text of a field. -/
def textField (members : List (String × Json)) (field : String) : Option String :=
  (Json.lookup field members).bind Json.str?

/-- The value of a field that is there and not `null`. -/
def anyField (members : List (String × Json)) (field : String) : Option Json :=
  (Json.lookup field members).filter fun j => !j.isNull

/-- The comparison of an object. -/
def readComparison (members : List (String × Json)) : Except Flaw Comparison := do
  let symbol ← demand "operator" (textField members "operator")
  match Comparison.ofSymbol? symbol with
  | some c => .ok c
  | none => .error (.unknownOperator symbol)

/-- The field `value` as an integer. -/
def readAmount (members : List (String × Json)) : Except Flaw Int64 := do
  let value ← demand "value" (anyField members "value")
  match value.int64? with
  | some n => .ok n
  | none => .error .valueNotInteger

/-- The field `value` as a stat. -/
def readStat (members : List (String × Json)) : Except Flaw Stat := do
  let value ← demand "value" (anyField members "value")
  match value with
  | .str s => .ok (.text s)
  | other =>
    match other.int64? with
    | some n => .ok (.number n)
    | none => .error .valueNotStat

/-! ## Parts of an event -/

namespace Condition

/-- The fields of a condition that have a type; `value` may hold anything. -/
def shape : Shape :=
  [("type", .text), ("operator", .text), ("region", .text), ("faction", .text), ("stat", .text)]

/-- A test of a stat of one kind of owners. -/
def readStatTest (side : Side) (members : List (String × Json)) : Except Flaw Condition := do
  let owner ← demand side.label (textField members side.label)
  let stat ← demand "stat" (textField members "stat")
  let comparison ← readComparison members
  let value ← readStat members
  return .stat { side, owner, stat, comparison, value }

/-- A condition. Kinds that are not known are kept as such. -/
def read (j : Json) : Except Flaw Condition := do
  let members ← shape.members j
  let kind ← demand "type" (textField members "type")
  match kind with
  | "year" =>
    let comparison ← readComparison members
    let value ← readAmount members
    return .year comparison value
  | "region" => readStatTest .region members
  | "faction" => readStatTest .faction members
  | "common" =>
    match ← demand "value" (anyField members "value") with
    | .str name => return .named name
    | _ => .error .valueNotName
  | kind => return .unknown kind

end Condition

namespace Effect

/-- The fields of an effect that have a type; `value` may hold anything. -/
def shape : Shape :=
  [("type", .text), ("region", .text), ("faction", .text), ("stat", .text), ("new_leader", .text)]

/-- The owner that an amount is for: exactly one region or faction. -/
def readTarget (members : List (String × Json)) : Except Flaw Target :=
  match textField members "region", textField members "faction" with
  | some name, none => .ok { side := .region, name }
  | none, some name => .ok { side := .faction, name }
  | some _, some _ => .error .twoOwners
  | none, none => .error .noOwner

/-- An effect. Kinds that are not known are kept as such. -/
def read (j : Json) : Except Flaw Effect := do
  let members ← shape.members j
  let kind ← demand "type" (textField members "type")
  match kind with
  | "modify_stat" =>
    let target ← readTarget members
    let stat ← demand "stat" (textField members "stat")
    let amount ← readAmount members
    return .adjust target stat amount
  | "change_leader" =>
    let faction ← demand "faction" (textField members "faction")
    let leader ← demand "new_leader" (textField members "new_leader")
    return .appoint faction leader
  | kind => return .unknown kind

end Effect

namespace FollowUp

/-- The chance of a follow-up that gives none. -/
def defaultChance : Float := 0.5

/-- The fields of a follow-up. -/
def shape : Shape := [("id", .text), ("delay", .integer), ("probability", .number)]

/-- A follow-up. Without a delay it is for the same year. -/
def read (j : Json) : Except Flaw FollowUp := do
  let members ← shape.members j
  let event ← demand "id" (textField members "id")
  let delay := ((Json.lookup "delay" members).bind Json.int64?).getD 0
  if delay.toInt < 0 ∨ UInt32.size ≤ delay.toInt then .error (.delayOutOfRange delay)
  let chance := ((Json.lookup "probability" members).bind Json.float?).getD defaultChance
  if !(0.0 ≤ chance && chance ≤ 1.0) then .error (.chanceOutOfRange chance)
  return { event, delay := UInt32.ofNat delay.toInt.toNat, chance }

end FollowUp

/-! ## Events -/

/-- Puts a flaw at its path. -/
def located {α : Type} (path : String) : Except Flaw α → Except CatalogFault α
  | .ok value => .ok value
  | .error flaw => .error (.schema path flaw)

/-- Reads the items of a list, counted from `index`; the path of an item ends in its index. -/
def readItems {α : Type} (path : String) (read : Json → Except Flaw α) :
    Nat → List Json → Except CatalogFault (List α)
  | _, [] => .ok []
  | index, item :: rest => do
    let value ← located (path ++ "[" ++ Text.ofNat index ++ "]") (read item)
    let values ← readItems path read (index + 1) rest
    return value :: values

/-- The items of a field; nothing when it is missing or `null`. -/
def listField (members : List (String × Json)) (field : String) : Option (List Json) :=
  (Json.lookup field members).bind Json.arr?

namespace Definition

/-- The fields of an event that are checked first. -/
def shape : Shape :=
  [("id", .text), ("name", .text), ("description", .text), ("conditions", .list true),
    ("effects", .list true), ("followup_events", .list false), ("is_followup", .flag)]

/-- The fields that are checked after the others. -/
def detailShape : Shape := Details.labels.map fun label => (label, .text)

/-- The fields of an event's object. -/
def readMembers (j : Json) : Except Flaw (List (String × Json)) := do
  let members ← shape.members j
  detailShape.check members
  return members

/-- The details of an event. -/
def readDetails (members : List (String × Json)) : Details :=
  { severity := textField members "severity", region := textField members "region"
    impact := textField members "impact", faction := textField members "faction" }

/-- The conditions of an event before they are read. An event that is picked in its category needs
at least one. -/
def readConditionList (members : List (String × Json)) (followUpOnly : Bool) :
    Except Flaw (List Json) :=
  match listField members "conditions", followUpOnly with
  | none, false => .error (.missing "conditions")
  | some [], false => .error .noCondition
  | found, _ => .ok (found.getD [])

/-- The event of a key. A declared id must be the key. -/
def read (path id category : String) (j : Json) : Except CatalogFault Definition := do
  let members ← located path (readMembers j)
  match textField members "id" with
  | some declared =>
    if declared ≠ id then throw (.schema path (.idMismatch declared id))
  | none => pure ()
  let name ← located path (demand "name" (textField members "name"))
  let followUpOnly := ((Json.lookup "is_followup" members).bind Json.bool?).getD false
  let conditions ← located path (readConditionList members followUpOnly)
  let conditions ← readItems (path ++ ".conditions") Condition.read 0 conditions
  let effects ← located path (demand "effects" (listField members "effects"))
  let effects ← readItems (path ++ ".effects") Effect.read 0 effects
  let followUps ← readItems (path ++ ".followup_events") FollowUp.read 0
    ((listField members "followup_events").getD [])
  return {
    id, name
    description := (textField members "description").getD ""
    category, conditions, effects, followUps, followUpOnly
    details := readDetails members }

end Definition

/-! ## Catalogs -/

namespace Catalog

/-- Ids that have been read, each with its category. -/
abbrev Seen := List (String × String)

/-- Reads the events of a category. An id must not have been read before. -/
def readEvents (category : String) :
    List (String × Json) → Seen → Except CatalogFault (List Definition × Seen)
  | [], seen => .ok ([], seen)
  | (id, value) :: rest, seen => do
    let definition ← Definition.read ("events." ++ category ++ "." ++ id) id category value
    match seen.lookup id with
    | some first => throw (.duplicateId id first category)
    | none =>
      let (definitions, seen) ← readEvents category rest ((id, category) :: seen)
      return (definition :: definitions, seen)

/-- Reads categories in document order. -/
def readCategories : List (String × Json) → Seen → Except CatalogFault (List Category)
  | [], _ => .ok []
  | (name, value) :: rest, seen =>
    match value with
    | .obj members => do
      let (events, seen) ← readEvents name members seen
      let categories ← readCategories rest seen
      return { name, events } :: categories
    | _ => .error (.schema ("events." ++ name) .categoryNotObject)

/-- The first event with a follow-up that is not in the catalog, and the first such follow-up. -/
def dangling? (c : Catalog) : Option (String × String) :=
  c.events.findSome? fun d =>
    (d.followUps.find? fun f => !c.contains f.event).map fun f => (d.id, f.event)

/-- Reads a catalog from a value whose objects have one member per name. -/
def ofJson (j : Json) : Except CatalogFault Catalog :=
  match j with
  | .obj _ =>
    match j.member? "events" with
    | none => .error (.schema "$" .noEvents)
    | some (.obj categories) => do
      let catalog : Catalog := { categories := ← readCategories categories [] }
      match catalog.dangling? with
      | some (event, followUp) => throw (.danglingFollowUp event followUp)
      | none => return catalog
    | some _ => .error (.schema "events" .eventsNotObject)
  | _ => .error (.schema "$" .rootNotObject)

/-- Reads a catalog from a text. -/
def ofText (text : String) : Except CatalogFault Catalog :=
  match Json.parse? text with
  | some j => ofJson j.distinct
  | none => .error .malformed

end Catalog

end Annals
