import Annals.Json.Printer
import Annals.Json.Record
import Annals.World.Condition
import Annals.World.Effect
/-!
# The world in JSON

How stats, conditions, effects, triggers and snapshots are written as JSON, and how they are read.
Every `ofJson?` reads what its `toJson` writes. The text of a trigger or a snapshot is read by its
`outline`: members that are no fields are passed over.
-/

namespace Annals

/-! ## Stats and owners -/

namespace Comparison

/-- A comparison as its symbol. -/
def toJson (c : Comparison) : Json := .str c.symbol

/-- Reads a comparison. -/
def ofJson? (j : Json) (nested : Bool := false) : Option Comparison := j.word? ofSymbol? nested

end Comparison

namespace Stat

/-- A stat as a number or a string. -/
def toJson : Stat → Json
  | .number n => .int n.toInt
  | .text s => .str s

/-- A stat is a 64-bit integer or a string. -/
def ofJson? : Json → Option Stat
  | .str s => some (.text s)
  | other => other.int64?.map .number

/-- The stat in messages. -/
def describe : Stat → String
  | .number n => Text.ofInt n.toInt
  | .text s => s

end Stat

namespace Side

/-- The kind of owners of a label. -/
def ofLabel? (label : String) : Option Side :=
  if label = "region" then some .region
  else if label = "faction" then some .faction
  else none

/-- Reads a kind of owners. -/
def ofJson? (j : Json) : Option Side := j.word? ofLabel? false

end Side

namespace Target

/-- An owner as the only member of an object, under the label of its kind. -/
def toJson (t : Target) : Json := .obj [(t.side.label, .str t.name)]

/-- Reads an owner. -/
def ofJson? : Json → Option Target
  | .obj [(label, .str name)] => (Side.ofLabel? label).map fun side => { side, name }
  | _ => none

/-- The first member that names an owner. -/
def ofMembers? (members : List (String × Json)) : Option Target :=
  match members.find? fun m => (Side.ofLabel? m.1).isSome with
  | some m => ofJson? (.obj [m])
  | none => none

end Target

/-! ## Conditions -/

namespace Condition

/-- The kinds of conditions. -/
def kinds : List String := ["year", "region", "faction", "common", "unknown"]

/-- A condition as an object tagged with its kind. -/
def toJson : Condition → Json
  | .year comparison value =>
    .obj [("type", .str "year"), ("operator", comparison.toJson), ("value", .int value.toInt)]
  | .stat t =>
    .obj [("type", .str t.side.label), (t.side.label, .str t.owner), ("stat", .str t.stat),
      ("operator", t.comparison.toJson), ("value", t.value.toJson)]
  | .named name => .obj [("type", .str "common"), ("value", .str name)]
  | .unknown kind => .obj [("type", .str "unknown"), ("kind", .str kind)]

/-- A stat test of an owner of one kind. -/
def statOfJson? (side : Side) (j : Json) : Option Condition := do
  let r ← Json.Record.ofJson? [side.label, "stat", "operator", "value"] false j
  let owner ← r.need side.label Json.str?
  let stat ← r.need "stat" Json.str?
  let comparison ← r.need "operator" fun c => Comparison.ofJson? c true
  let value ← r.need "value" Stat.ofJson?
  return .stat { side, owner, stat, comparison, value }

/-- Reads a condition. -/
def ofJson? (j : Json) (nested : Bool := false) : Option Condition := do
  let (kind, rest) ← j.untag? "type" kinds nested
  match kind with
  | "year" =>
    let r ← Json.Record.ofJson? ["operator", "value"] false rest
    return .year (← r.need "operator" fun c => Comparison.ofJson? c true)
      (← r.need "value" Json.int64?)
  | "region" => statOfJson? .region rest
  | "faction" => statOfJson? .faction rest
  | "common" =>
    let r ← Json.Record.ofJson? ["value"] false rest
    return .named (← r.need "value" Json.str?)
  | _ =>
    let r ← Json.Record.ofJson? ["kind"] false rest
    return .unknown (← r.need "kind" Json.str?)

end Condition

/-! ## Effects -/

namespace Effect

/-- The kinds of effects. -/
def kinds : List String := ["modify_stat", "change_leader", "unknown"]

/-- An effect as an object tagged with its kind. -/
def toJson : Effect → Json
  | .adjust target stat amount =>
    .obj [("type", .str "modify_stat"), (target.side.label, .str target.name),
      ("stat", .str stat), ("value", .int amount.toInt)]
  | .appoint faction leader =>
    .obj [("type", .str "change_leader"), ("faction", .str faction), ("new_leader", .str leader)]
  | .unknown kind => .obj [("type", .str "unknown"), ("kind", .str kind)]

/-- An amount for a stat. Its owner is the first member that names one; the fields are read from
an object only. -/
def adjustOfJson? (j : Json) : Option Effect := do
  let members ← j.obj?
  let r ← Json.Record.ofJson? ["stat", "value"] false j
  let target ← Target.ofMembers? members
  return .adjust target (← r.need "stat" Json.str?) (← r.need "value" Json.int64?)

/-- Reads an effect. -/
def ofJson? (j : Json) (nested : Bool := false) : Option Effect := do
  let (kind, rest) ← j.untag? "type" kinds nested
  match kind with
  | "modify_stat" => adjustOfJson? rest
  | "change_leader" =>
    let r ← Json.Record.ofJson? ["faction", "new_leader"] false rest
    return .appoint (← r.need "faction" Json.str?) (← r.need "new_leader" Json.str?)
  | _ =>
    let r ← Json.Record.ofJson? ["kind"] false rest
    return .unknown (← r.need "kind" Json.str?)

end Effect

/-! ## Triggers -/

namespace Trigger

/-- A trigger as an object. -/
def toJson (t : Trigger) : Json :=
  .obj [("event_id", .str t.event), ("trigger_year", .int t.due.toInt),
    ("probability", .float t.chance), ("category", .str t.category),
    ("scheduled_by", .str t.scheduledBy), ("scheduled_in", .int t.scheduledIn.toInt)]

/-- The fields of a trigger. -/
def outline : Json.Outline :=
  .plain ["event_id", "trigger_year", "probability", "category", "scheduled_by", "scheduled_in"]

/-- Reads a trigger; every field must be there. -/
def ofJson? (j : Json) : Option Trigger := do
  let r ← Json.Record.ofJson? outline.names false j
  return {
    event := ← r.need "event_id" Json.str?
    due := ← r.need "trigger_year" Json.int32?
    chance := ← r.need "probability" Json.float?
    category := ← r.need "category" Json.str?
    scheduledBy := ← r.need "scheduled_by" Json.str?
    scheduledIn := ← r.need "scheduled_in" Json.int32? }

/-- Reads a trigger from a text. -/
def ofText? (text : String) : Option Trigger := Json.ofText? outline ofJson? text

end Trigger

/-! ## Snapshots -/

/-- An object with a table's entries in order. -/
def Table.toJson {α : Type} (encode : α → Json) (t : Table α) : Json :=
  .obj (t.toList.map fun e => (e.1, encode e.2))

/-- A table of an object's members; of two members of one name the later one counts. -/
def Table.ofJson? {α : Type} (decode : Json → Option α) (j : Json) : Option (Table α) :=
  j.obj?.bind fun members =>
    (members.mapM fun m => (decode m.2).map fun value => (m.1, value)).map Table.ofList

/-- The world without its queue: what is shown of it and what it can be restored from. -/
structure Snapshot where
  year : Year
  regions : Table Stats
  factions : Table Stats
deriving DecidableEq

namespace Snapshot

/-- A snapshot as an object. -/
def toJson (s : Snapshot) : Json :=
  .obj [("current_year", .int s.year.toInt),
    ("regions", s.regions.toJson (Table.toJson Stat.toJson)),
    ("factions", s.factions.toJson (Table.toJson Stat.toJson))]

/-- The fields of a snapshot. -/
def outline : Json.Outline := .plain ["current_year", "regions", "factions"]

/-- The owners may be left out. -/
def ofJson? (j : Json) : Option Snapshot := do
  let r ← Json.Record.ofJson? outline.names false j
  let owners := Table.ofJson? (Table.ofJson? Stat.ofJson?)
  return {
    year := ← r.need "current_year" Json.int32?
    regions := ← r.getD "regions" owners .empty
    factions := ← r.getD "factions" owners .empty }

/-- Reads a snapshot from a text. -/
def ofText? (text : String) : Option Snapshot := Json.ofText? outline ofJson? text

/-- The indented text of a snapshot. -/
def text (s : Snapshot) : String := s.toJson.pretty

end Snapshot

namespace World

/-- What a snapshot keeps of the world. -/
def snapshot (w : World) : Snapshot :=
  { year := w.year, regions := w.regions, factions := w.factions }

/-- The world of a snapshot, with an empty queue. -/
def ofSnapshot (s : Snapshot) : World :=
  { year := s.year, regions := s.regions, factions := s.factions, queue := [] }

end World

end Annals
