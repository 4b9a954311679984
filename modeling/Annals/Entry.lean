import Annals.Event.Encoding
import Annals.Family.Encoding
import Annals.Json.Parser
/-!
# Entries of the chronicle

An entry tells of a world event or of a family event.

* `Entry.line`, `Entry.ofLine?`: an entry as one line of JSON.
* `Filter`: which entries are shown.
* `Entry.render`, `renderYear`: entries as text.
-/

namespace Annals

/-- One thing that the chronicle tells. -/
inductive Entry where
  | world (event : Occurrence)
  | family (event : FamilyEvent)
deriving DecidableEq

namespace Entry

/-- The year that the entry tells of. -/
def year : Entry → Year
  | .world e => e.year
  | .family e => e.year

/-- The event of the entry in words. -/
def describe : Entry → String
  | .world e => e.describe
  | .family e => e.describe

/-! ## Lines of JSON -/

/-- The kinds of entries. -/
def kinds : List String := ["world", "dynasty"]

/-- The members of the event behind a tag for its kind. -/
def toJson : Entry → Json
  | .world e => .obj (("source", .str "world") :: e.members)
  | .family e => .obj (("source", .str "dynasty") :: e.members)

/-- Reads an entry. -/
def ofJson? (j : Json) : Option Entry := do
  let (kind, rest) ← j.untag? "source" kinds false
  match kind with
  | "world" => return .world (← Occurrence.ofJson? rest true)
  | _ => return .family (← FamilyEvent.ofJson? rest true)

/-- The entry on one line. -/
def line (e : Entry) : String := e.toJson.compact

/-- Reads an entry from a line. -/
def ofLine? (text : String) : Option Entry := (Json.parse? text).bind ofJson?

/-- Entries on lines of their own, each ended by a line break. -/
def lines (entries : List Entry) : String :=
  String.join (entries.map fun e => e.line ++ "\n")

/-! ## Text -/

/-- The entry as it stands below its year. -/
def render : Entry → String
  | .world e => "  * " ++ e.describe
  | .family e => "  [" ++ e.dynasty ++ "] " ++ e.describe

end Entry

/-! ## Filters -/

/-- Which entries are shown. -/
structure Filter where
  /-- The categories of world events to keep; all when there is none. -/
  categories : List String := []
  worldEvents : Bool := true
  familyEvents : Bool := true
deriving DecidableEq, Repr

namespace Filter

/-- Whether an entry is shown. Categories restrict world events only. -/
def allows (f : Filter) : Entry → Bool
  | .world e => f.worldEvents && (f.categories.isEmpty || f.categories.contains e.category)
  | .family _ => f.familyEvents

/-- The entries that are shown, in their order. -/
def apply (f : Filter) (entries : List Entry) : List Entry := entries.filter f.allows

end Filter

/-- A year with the entries that are shown; nothing when there are none. -/
def renderYear (year : Year) (entries : List Entry) (f : Filter) : Option String :=
  match f.apply entries with
  | [] => none
  | shown =>
    some ("Year " ++ Text.ofInt year.toInt ++ "\n" ++
      String.intercalate "\n" (shown.map Entry.render))

end Annals
