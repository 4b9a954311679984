import Annals.Course
import Annals.Family.Settings
import Annals.Json.Record
import Annals.Toml.Document
/-!
# Configurations

Everything that can be set for a run. Every setting has a default, so any part of a configuration
may be left out.

* `Config.ofJson?`, `Config.toJson`: a configuration as JSON.
* `Config.ofText?`: a configuration from a JSON text.
* `Config.ofToml?`: a configuration from a TOML text.
-/

namespace Annals

/-- What a run begins with. -/
structure RunSettings where
  startYear : Year := 1000
  years : UInt32 := 50
  seed : UInt64 := 42
  /-- The path of the catalog. -/
  catalog : String := "data/event_definitions.json"
  /-- The dynasties that are founded at the beginning. -/
  dynasties : List String := ["House Nerdival"]
deriving DecidableEq, Repr

/-- The limits on world events when none are set. -/
def CourseSettings.default : CourseSettings := { maxDepth := 10, categoryChance := 1.0 }

/-- All settings. -/
structure Config where
  run : RunSettings := {}
  course : CourseSettings := .default
  family : FamilySettings := {}
deriving DecidableEq

/-! ## Sections -/

namespace RunSettings

/-- The section as an object. -/
def toJson (s : RunSettings) : Json :=
  .obj [("start_year", .int s.startYear.toInt), ("years", .int s.years.toNat),
    ("seed", .int s.seed.toNat), ("catalog", .str s.catalog),
    ("dynasties", .arr (s.dynasties.map .str))]

/-- The fields of the section. -/
def outline : Json.Outline := .plain ["start_year", "years", "seed", "catalog", "dynasties"]

/-- Reads the section; what is left out has its default. -/
def ofJson? (spare : Bool) (j : Json) : Option RunSettings := do
  let r ← Json.Record.ofJson? outline.names spare j
  let d : RunSettings := {}
  return {
    startYear := ← r.getD "start_year" Json.int32? d.startYear
    years := ← r.getD "years" Json.uint32? d.years
    seed := ← r.getD "seed" Json.uint64? d.seed
    catalog := ← r.getD "catalog" Json.str? d.catalog
    dynasties := ← r.getD "dynasties" (Json.list? Json.str?) d.dynasties }

end RunSettings

namespace CourseSettings

/-- The section as an object. -/
def toJson (s : CourseSettings) : Json :=
  .obj [("max_followup_depth", .int s.maxDepth.toNat),
    ("category_trigger_chance", .float s.categoryChance)]

/-- The fields of the section. -/
def outline : Json.Outline := .plain ["max_followup_depth", "category_trigger_chance"]

/-- Reads the section; what is left out has its default. -/
def ofJson? (spare : Bool) (j : Json) : Option CourseSettings := do
  let r ← Json.Record.ofJson? outline.names spare j
  return {
    maxDepth := ← r.getD "max_followup_depth" Json.uint32? default.maxDepth
    categoryChance := ← r.getD "category_trigger_chance" Json.float? default.categoryChance }

end CourseSettings

namespace AgeingSettings

/-- The section as an object. -/
def toJson (s : AgeingSettings) : Json :=
  .obj [("max_base_age", .int s.maxBaseAge.toInt), ("max_age_bonus", .int s.maxAgeBonus.toInt),
    ("initial_health", .int s.initialHealth.toInt),
    ("health_decrease_min", .int s.healthLossMin.toInt),
    ("health_decrease_max", .int s.healthLossMax.toInt)]

/-- The fields of the section. -/
def outline : Json.Outline :=
  .plain ["max_base_age", "max_age_bonus", "initial_health", "health_decrease_min",
    "health_decrease_max"]

/-- Reads the section; what is left out has its default. -/
def ofJson? (spare : Bool) (j : Json) : Option AgeingSettings := do
  let r ← Json.Record.ofJson? outline.names spare j
  let d : AgeingSettings := {}
  return {
    maxBaseAge := ← r.getD "max_base_age" Json.int32? d.maxBaseAge
    maxAgeBonus := ← r.getD "max_age_bonus" Json.int32? d.maxAgeBonus
    initialHealth := ← r.getD "initial_health" Json.int32? d.initialHealth
    healthLossMin := ← r.getD "health_decrease_min" Json.int32? d.healthLossMin
    healthLossMax := ← r.getD "health_decrease_max" Json.int32? d.healthLossMax }

end AgeingSettings

namespace MarriageSettings

/-- The section as an object. -/
def toJson (s : MarriageSettings) : Json :=
  .obj [("min_age", .int s.minAge.toInt), ("marriage_chance_base", .float s.baseChance),
    ("marriage_chance_increase", .float s.chancePerYear),
    ("max_marriage_chance", .float s.maxChance),
    ("max_age_difference", .int s.maxAgeDifference.toInt),
    ("new_candidate_chance", .float s.newCandidateChance),
    ("candidate_years", .int s.candidateYears.toNat),
    ("candidate_min_age", .int s.candidateMinAge.toInt),
    ("candidate_max_age", .int s.candidateMaxAge.toInt)]

/-- The fields of the section. -/
def outline : Json.Outline :=
  .plain ["min_age", "marriage_chance_base", "marriage_chance_increase", "max_marriage_chance",
    "max_age_difference", "new_candidate_chance", "candidate_years", "candidate_min_age",
    "candidate_max_age"]

/-- Reads the section; what is left out has its default. -/
def ofJson? (spare : Bool) (j : Json) : Option MarriageSettings := do
  let r ← Json.Record.ofJson? outline.names spare j
  let d : MarriageSettings := {}
  return {
    minAge := ← r.getD "min_age" Json.int32? d.minAge
    baseChance := ← r.getD "marriage_chance_base" Json.float? d.baseChance
    chancePerYear := ← r.getD "marriage_chance_increase" Json.float? d.chancePerYear
    maxChance := ← r.getD "max_marriage_chance" Json.float? d.maxChance
    maxAgeDifference := ← r.getD "max_age_difference" Json.int32? d.maxAgeDifference
    newCandidateChance := ← r.getD "new_candidate_chance" Json.float? d.newCandidateChance
    candidateYears := ← r.getD "candidate_years" Json.uint32? d.candidateYears
    candidateMinAge := ← r.getD "candidate_min_age" Json.int32? d.candidateMinAge
    candidateMaxAge := ← r.getD "candidate_max_age" Json.int32? d.candidateMaxAge }

end MarriageSettings

namespace ChildbirthSettings

/-- The section as an object. -/
def toJson (s : ChildbirthSettings) : Json :=
  .obj [("min_age", .int s.minAge.toInt), ("max_age", .int s.maxAge.toInt),
    ("chance", .float s.chance)]

/-- The fields of the section. -/
def outline : Json.Outline := .plain ["min_age", "max_age", "chance"]

/-- Reads the section; what is left out has its default. -/
def ofJson? (spare : Bool) (j : Json) : Option ChildbirthSettings := do
  let r ← Json.Record.ofJson? outline.names spare j
  let d : ChildbirthSettings := {}
  return {
    minAge := ← r.getD "min_age" Json.int32? d.minAge
    maxAge := ← r.getD "max_age" Json.int32? d.maxAge
    chance := ← r.getD "chance" Json.float? d.chance }

end ChildbirthSettings

/-! ## Configurations -/

namespace Config

/-- The sections as an object. -/
def toJson (c : Config) : Json :=
  .obj [("simulation", c.run.toJson), ("engine", c.course.toJson),
    ("person", c.family.ageing.toJson), ("marriage", c.family.marriage.toJson),
    ("childbirth", c.family.childbirth.toJson)]

/-- The sections of a configuration. -/
def outline : Json.Outline :=
  .record [("simulation", RunSettings.outline), ("engine", CourseSettings.outline),
    ("person", AgeingSettings.outline), ("marriage", MarriageSettings.outline),
    ("childbirth", ChildbirthSettings.outline)]

/-- Reads a configuration. With `spare`, arrays that stand for sections may be too long. -/
def ofJson? (j : Json) (spare : Bool := false) : Option Config := do
  let r ← Json.Record.ofJson? outline.names spare j
  return {
    run := ← r.getD "simulation" (RunSettings.ofJson? spare) {}
    course := ← r.getD "engine" (CourseSettings.ofJson? spare) .default
    family := {
      ageing := ← r.getD "person" (AgeingSettings.ofJson? spare) {}
      marriage := ← r.getD "marriage" (MarriageSettings.ofJson? spare) {}
      childbirth := ← r.getD "childbirth" (ChildbirthSettings.ofJson? spare) {} } }

/-- Reads a configuration from a JSON text; members that are no settings are passed over. -/
def ofText? (text : String) : Option Config := Json.ofText? outline (ofJson? ·) text

/-- Reads a configuration from a TOML text. -/
def ofToml? (text : String) : Option Config := (Toml.parse? text).bind fun j => ofJson? j true

end Config

end Annals
