import Annals.Event
import Annals.World.Encoding
/-!
# Events in JSON

How definitions and occurrences are written as JSON, and how they are read. Empty descriptions of
occurrences and empty details are left out.

A text is read by the `outline` of what it tells: members that are no fields are passed over.
-/

namespace Annals

namespace FollowUp

/-- A follow-up as an object. -/
def toJson (f : FollowUp) : Json :=
  .obj [("id", .str f.event), ("delay", .int f.delay.toNat), ("probability", .float f.chance)]

/-- The fields of a follow-up. -/
def outline : Json.Outline := .plain ["id", "delay", "probability"]

/-- Reads a follow-up; every field must be there. -/
def ofJson? (j : Json) : Option FollowUp := do
  let r ← Json.Record.ofJson? outline.names false j
  return {
    event := ← r.need "id" Json.str?
    delay := ← r.need "delay" Json.uint32?
    chance := ← r.need "probability" Json.float? }

/-- Reads a follow-up from a text. -/
def ofText? (text : String) : Option FollowUp := Json.ofText? outline ofJson? text

end FollowUp

namespace Details

/-- The details that are there as an object. -/
def toJson (d : Details) : Json := .obj (d.present.map fun e => (e.1, .str e.2))

/-- The fields of details. -/
def outline : Json.Outline := .plain labels

/-- Every detail may be left out or `null`. -/
def ofJson? (j : Json) : Option Details := do
  let r ← Json.Record.ofJson? outline.names false j
  let detail (name : String) := r.getD name (Json.nullable? Json.str?) none
  return {
    severity := ← detail "severity"
    region := ← detail "region"
    impact := ← detail "impact"
    faction := ← detail "faction" }

/-- Reads details from a text. -/
def ofText? (text : String) : Option Details := Json.ofText? outline ofJson? text

/-- The member for the details, left out when there are none. -/
def member (d : Details) : List (String × Json) :=
  if d.isEmpty then [] else [("metadata", d.toJson)]

end Details

namespace Definition

/-- A definition as an object. -/
def toJson (d : Definition) : Json :=
  .obj ([("id", .str d.id), ("name", .str d.name), ("description", .str d.description),
    ("category", .str d.category), ("conditions", .arr (d.conditions.map Condition.toJson)),
    ("effects", .arr (d.effects.map Effect.toJson)),
    ("followup_events", .arr (d.followUps.map FollowUp.toJson)),
    ("is_followup", .bool d.followUpOnly)] ++ d.details.member)

/-- The fields of a definition. -/
def outline : Json.Outline :=
  .record [("id", .whole), ("name", .whole), ("description", .whole), ("category", .whole),
    ("conditions", .whole), ("effects", .whole), ("followup_events", .list FollowUp.outline),
    ("is_followup", .whole), ("metadata", Details.outline)]

/-- Reads a definition. Only `id`, `name` and `category` must be there. -/
def ofJson? (j : Json) : Option Definition := do
  let r ← Json.Record.ofJson? outline.names false j
  return {
    id := ← r.need "id" Json.str?
    name := ← r.need "name" Json.str?
    description := ← r.getD "description" Json.str? ""
    category := ← r.need "category" Json.str?
    conditions := ← r.getD "conditions" (Json.list? Condition.ofJson?) []
    effects := ← r.getD "effects" (Json.list? Effect.ofJson?) []
    followUps := ← r.getD "followup_events" (Json.list? FollowUp.ofJson?) []
    followUpOnly := ← r.getD "is_followup" Json.bool? false
    details := ← r.getD "metadata" Details.ofJson? {} }

/-- Reads a definition from a text. -/
def ofText? (text : String) : Option Definition := Json.ofText? outline ofJson? text

end Definition

namespace Origin

/-- The kinds of origins. -/
def kinds : List String := ["scan", "followup", "delayed"]

/-- An origin as an object tagged with its kind. -/
def toJson : Origin → Json
  | .scan => .obj [("kind", .str "scan")]
  | .followUp parent => .obj [("kind", .str "followup"), ("parent", .str parent)]
  | .delayed parent scheduledIn =>
    .obj [("kind", .str "delayed"), ("parent", .str parent),
      ("scheduled_in", .int scheduledIn.toInt)]

/-- Reads an origin. -/
def ofJson? (j : Json) (nested : Bool := false) : Option Origin := do
  let (kind, rest) ← j.untag? "kind" kinds nested
  match kind with
  | "scan" =>
    let _ ← Json.Record.ofJson? [] false rest
    return .scan
  | "followup" =>
    let r ← Json.Record.ofJson? ["parent"] false rest
    return .followUp (← r.need "parent" Json.str?)
  | _ =>
    let r ← Json.Record.ofJson? ["parent", "scheduled_in"] false rest
    return .delayed (← r.need "parent" Json.str?) (← r.need "scheduled_in" Json.int32?)

end Origin

namespace Occurrence

/-- The members of an occurrence, in their order. -/
def members (o : Occurrence) : List (String × Json) :=
  [("year", .int o.year.toInt), ("id", .str o.id), ("name", .str o.name)] ++
  (if o.description.isEmpty then [] else [("description", .str o.description)]) ++
  [("category", .str o.category), ("effects", .arr (o.effects.map Effect.toJson)),
    ("origin", o.origin.toJson)] ++ o.details.member

/-- An occurrence as an object. -/
def toJson (o : Occurrence) : Json := .obj o.members

/-- The fields of an occurrence. -/
def outline : Json.Outline :=
  .record [("year", .whole), ("id", .whole), ("name", .whole), ("description", .whole),
    ("category", .whole), ("effects", .whole), ("origin", .whole), ("metadata", Details.outline)]

/-- Reads an occurrence. Only the description and the details may be left out. -/
def ofJson? (j : Json) (nested : Bool := false) : Option Occurrence := do
  let r ← Json.Record.ofJson? outline.names false j
  return {
    year := ← r.need "year" Json.int32?
    id := ← r.need "id" Json.str?
    name := ← r.need "name" Json.str?
    description := ← r.getD "description" Json.str? ""
    category := ← r.need "category" Json.str?
    effects := ← r.need "effects" (Json.list? fun e => Effect.ofJson? e nested)
    origin := ← r.need "origin" fun o => Origin.ofJson? o nested
    details := ← r.getD "metadata" Details.ofJson? {} }

/-- Reads an occurrence from a text. -/
def ofText? (text : String) : Option Occurrence := Json.ofText? outline (ofJson? ·) text

end Occurrence

end Annals
