import Annals.Json.Printer
import Annals.Text.Quoted
/-!
# What can be wrong with a catalog

* `Flaw`: one object of the document is not what its place demands.
* `CatalogFault`: a catalog is refused, for a flaw at some path or for the ids of its events.

`message` gives the wording of each.
-/

namespace Annals

/-! ## Types of fields -/

/-- What a field of an event, condition, effect or follow-up may hold. -/
inductive FieldType where
  /-- A string or `null`. -/
  | text
  /-- An array, or `null` where that is allowed. -/
  | list (nullable : Bool)
  /-- `true` or `false`. -/
  | flag
  /-- A 64-bit integer or `null`. -/
  | integer
  /-- A number or `null`. -/
  | number
deriving DecidableEq, Repr

namespace FieldType

/-- The type in messages. -/
def wanted : FieldType → String
  | .text => "a string"
  | .list _ => "a sequence"
  | .flag => "a boolean"
  | .integer => "i64"
  | .number => "f64"

/-- Whether a field of the type may hold a value. -/
def admits : FieldType → Json → Bool
  | .text, j => j.isNull || j.str?.isSome
  | .list nullable, j => (nullable && j.isNull) || j.arr?.isSome
  | .flag, j => j.bool?.isSome
  | .integer, j => j.isNull || j.int64?.isSome
  | .number, j => j.isNull || j.float?.isSome

end FieldType

/-! ## Flaws -/

/-- Why an object of the document is refused. -/
inductive Flaw where
  | rootNotObject
  | noEvents
  | eventsNotObject
  | categoryNotObject
  | notObject
  | wrongType (found : Json) (wanted : FieldType)
  | missing (field : String)
  | idMismatch (declared key : String)
  | noCondition
  | unknownOperator (symbol : String)
  | valueNotInteger
  | valueNotStat
  | valueNotName
  | twoOwners
  | noOwner
  | delayOutOfRange (delay : Int64)
  | chanceOutOfRange (chance : Float)

namespace Flaw

/-- What a value looks like to someone who expected something else. -/
def found : Json → String
  | .null => "null"
  | .bool true => "boolean \x60true\x60"
  | .bool false => "boolean \x60false\x60"
  | .int n => "integer \x60" ++ Text.ofInt n ++ "\x60"
  | .float x => "floating point \x60" ++ Json.floatLayout.ofFloat x ++ "\x60"
  | .str s => "string " ++ Text.quoted s
  | .arr _ => "sequence"
  | .obj _ => "map"

/-- A probability is shown without an exponent, and as a whole number when it is one. Of two equally
near decimals the one farther from zero is written. -/
def chanceLayout : Decimal.Layout :=
  { tie := .awayFromZero, bounds := none, showsFraction := false }

/-- An integer where an integer of a smaller range was wanted has the right type and a wrong
value. -/
def mismatch (value : Json) (wanted : FieldType) : String :=
  let complaint := match value, wanted with
    | .int _, .integer => "invalid value: "
    | _, _ => "invalid type: "
  complaint ++ found value ++ ", expected " ++ wanted.wanted

/-- The wording of a flaw. -/
def message : Flaw → String
  | .rootNotObject => "catalog must be a JSON object"
  | .noEvents => "missing top-level 'events' object"
  | .eventsNotObject => "'events' must be an object of categories"
  | .categoryNotObject => "category must be an object of events"
  | .notObject => "expected an object"
  | .wrongType value wanted => mismatch value wanted
  | .missing field => "missing required field '" ++ field ++ "'"
  | .idMismatch declared key =>
    "declared id '" ++ declared ++ "' does not match key '" ++ key ++ "'"
  | .noCondition => "scanned events need at least one condition"
  | .unknownOperator symbol => "unknown operator '" ++ symbol ++ "'"
  | .valueNotInteger => "'value' must be an integer"
  | .valueNotStat => "'value' must be an integer or a string"
  | .valueNotName => "common condition 'value' must be a name"
  | .twoOwners => "modify_stat names both a region and a faction"
  | .noOwner => "modify_stat needs a 'region' or a 'faction'"
  | .delayOutOfRange delay => "delay must be >= 0, got " ++ Text.ofInt delay.toInt
  | .chanceOutOfRange chance =>
    "probability must be within [0, 1], got " ++ chanceLayout.ofFloat chance

end Flaw

/-! ## Refusals -/

/-- Why a catalog is refused. -/
inductive CatalogFault where
  /-- The text is not JSON. -/
  | malformed
  /-- An object of the document has a flaw. -/
  | schema (path : String) (flaw : Flaw)
  /-- Two categories define the same event. -/
  | duplicateId (id first second : String)
  /-- A follow-up is not in the catalog. -/
  | danglingFollowUp (event followUp : String)

namespace CatalogFault

/-- The wording of a refusal. -/
def message : CatalogFault → String
  | .malformed => "catalog is not valid JSON"
  | .schema path flaw => "invalid catalog at " ++ path ++ ": " ++ flaw.message
  | .duplicateId id first second =>
    "event id '" ++ id ++ "' is defined in both '" ++ first ++ "' and '" ++ second ++ "'"
  | .danglingFollowUp event followUp =>
    "event '" ++ event ++ "' declares follow-up '" ++ followUp ++
      "', which is not in the catalog"

end CatalogFault

end Annals
