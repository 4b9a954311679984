import Annals.Config
import Annals.Entry
/-!
# Options of the command line

Options are long. An option with a value takes it from the next argument or after an equals sign; a
next argument that begins with a dash is no value, unless it is a lone dash. Only `--dynasty` and
`--category` may be repeated. There are no other arguments.

* `Options.parse?`: the options of an argument list.
* `Options.override`: a configuration with the options on top of it.
-/

namespace Annals.Cli

/-- How the chronicle is printed. -/
inductive Format where
  | text
  | jsonl
deriving DecidableEq, Repr

/-- What the command line asks for. -/
structure Options where
  config : Option String := none
  catalog : Option String := none
  seed : Option UInt64 := none
  startYear : Option Year := none
  years : Option UInt32 := none
  dynasties : List String := []
  categories : List String := []
  noWorldEvents : Bool := false
  noFamilyEvents : Bool := false
  format : Option Format := none
  /-- A file that gets every entry of the run. -/
  eventsOut : Option String := none
  noFamilyTree : Bool := false
  logLevel : Option String := none
deriving DecidableEq, Repr

namespace Options

/-! ## Values -/

/-- A numeral with an optional sign. -/
def integer? (text : String) : Option Int :=
  match text.toList with
  | '-' :: digits => (Text.readNat? digits).map fun n => -(n : Int)
  | '+' :: digits => (Text.readNat? digits).map fun n => (n : Int)
  | digits => (Text.readNat? digits).map fun n => (n : Int)

/-- A 64-bit number without a minus sign. -/
def seed? (text : String) : Option UInt64 :=
  match text.toList with
  | '-' :: _ => none
  | _ => (integer? text).bind fun n => Json.uint64? (.int n)

/-- A year. -/
def year? (text : String) : Option Year := (integer? text).bind fun n => Json.int32? (.int n)

/-- A number of years. -/
def count? (text : String) : Option UInt32 := (integer? text).bind fun n => Json.uint32? (.int n)

/-- A path is not empty. -/
def path? (text : String) : Option String := if text.isEmpty then none else some text

/-- A format by its name. -/
def format? (text : String) : Option Format :=
  if text = "text" then some .text else if text = "jsonl" then some .jsonl else none

/-- Sets an option that may be set only once. -/
def once {α : Type} (old new : Option α) : Option (Option α) :=
  match old, new with
  | none, some value => some (some value)
  | _, _ => none

/-! ## Arguments -/

/-- Sets an option that takes a value. -/
def setValue? (o : Options) (name value : String) : Option Options :=
  match name with
  | "--config" => (once o.config (path? value)).map fun config => { o with config }
  | "--catalog" => (once o.catalog (path? value)).map fun catalog => { o with catalog }
  | "--seed" => (once o.seed (seed? value)).map fun seed => { o with seed }
  | "--start-year" => (once o.startYear (year? value)).map fun startYear => { o with startYear }
  | "--years" => (once o.years (count? value)).map fun years => { o with years }
  | "--dynasty" => some { o with dynasties := o.dynasties ++ [value] }
  | "--category" => some { o with categories := o.categories ++ [value] }
  | "--format" => (once o.format (format? value)).map fun format => { o with format }
  | "--events-out" => (once o.eventsOut (path? value)).map fun eventsOut => { o with eventsOut }
  | "--log-level" => (once o.logLevel (some value)).map fun logLevel => { o with logLevel }
  | _ => none

/-- Sets an option that takes no value; it may be set only once. -/
def setFlag? (o : Options) (name : String) : Option Options :=
  match name with
  | "--no-world-events" =>
    if o.noWorldEvents then none else some { o with noWorldEvents := true }
  | "--no-dynasty-events" =>
    if o.noFamilyEvents then none else some { o with noFamilyEvents := true }
  | "--no-family-tree" => if o.noFamilyTree then none else some { o with noFamilyTree := true }
  | _ => none

/-- The options that take no value. -/
def flags : List String := ["--no-world-events", "--no-dynasty-events", "--no-family-tree"]

/-- Splits an argument at its first equals sign. -/
def splitArgument (arg : String) : String × Option String :=
  let cs := arg.toList
  let name := cs.takeWhile (· ≠ '=')
  match cs.drop name.length with
  | _ :: value => (String.ofList name, some (String.ofList value))
  | [] => (arg, none)

/-- Whether an argument can be the value of the option before it. -/
def isValue (arg : String) : Bool :=
  match arg.toList with
  | '-' :: _ :: _ => false
  | _ => true

/-- Adds the options of an argument list; nothing when the list is not understood. Two dashes end
the options, and nothing may follow them. -/
def parseFrom : List String → Options → Option Options
  | [], o => some o
  | ["--"], o => some o
  | arg :: rest, o =>
    match splitArgument arg with
    | (name, some value) => (o.setValue? name value).bind (parseFrom rest)
    | (name, none) =>
      if flags.contains name then (o.setFlag? name).bind (parseFrom rest)
      else
        match rest with
        | value :: rest =>
          if isValue value then (o.setValue? name value).bind (parseFrom rest) else none
        | [] => none

/-- The options of an argument list. -/
def parse? (args : List String) : Option Options := parseFrom args {}

/-! ## Use -/

/-- The entries that are shown. -/
def filter (o : Options) : Filter :=
  { categories := o.categories, worldEvents := !o.noWorldEvents
    familyEvents := !o.noFamilyEvents }

/-- The format of the output; text when none is asked for. -/
def outputFormat (o : Options) : Format := o.format.getD .text

/-- A configuration with the options on top of it. -/
def override (o : Options) (c : Config) : Config :=
  { c with run := {
      startYear := o.startYear.getD c.run.startYear
      years := o.years.getD c.run.years
      seed := o.seed.getD c.run.seed
      catalog := o.catalog.getD c.run.catalog
      dynasties := if o.dynasties.isEmpty then c.run.dynasties else o.dynasties } }

end Options

end Annals.Cli
