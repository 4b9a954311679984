import Annals.Catalog.Reader
import Annals.Cli.Host
import Annals.Cli.Options
import Annals.Cli.Path
import Annals.Dice.Generator
import Annals.Family.Tree
import Annals.Simulation
/-!
# The program

Configuration, catalog and output file are opened in this order, before anything is printed. Then
the years are simulated and printed, and the file gets every entry of every year.

* `runProgram`: the program for a list of arguments.
-/

namespace Annals.Cli

/-! ## Faults -/

/-- Why the program stops. -/
inductive ProgramFault where
  | configFile (fault : FileFault)
  | configText
  | catalogFile (path : String) (fault : FileFault)
  | catalog (fault : CatalogFault)
  | course (fault : CourseFault)
  | output (fault : FileFault)

/-- The wording of a fault. -/
def ProgramFault.message : ProgramFault → String
  | .configFile fault => "IO error: " ++ fault.message
  | .configText => "TOML parse error"
  | .catalogFile path fault => "could not read catalog " ++ path ++ ": " ++ fault.message
  | .catalog fault => fault.message
  | .course fault => fault.message
  | .output fault => "could not write chronicle: " ++ fault.message

/-! ## Input -/

variable {m : Type → Type} [Monad m] [Host m]

/-- The configuration file that is read when none is named. -/
def defaultConfigPath : String := "chronicle.toml"

/-- Reads a configuration file. -/
def readConfig (path : String) : m (Except ProgramFault Config) := do
  match ← Host.readText path with
  | .error fault => return .error (.configFile fault)
  | .ok text =>
    match Config.ofToml? text with
    | some config => return .ok config
    | none => return .error .configText

/-- The configuration before the options: from the named file, or from the default one if it is
there. -/
def baseConfig (o : Options) : m (Except ProgramFault Config) := do
  match o.config with
  | some path => readConfig path
  | none =>
    if ← Host.isPresent defaultConfigPath then readConfig defaultConfigPath
    else return .ok {}

/-- The configuration with the options on top of it. -/
def loadConfig (o : Options) : m (Except ProgramFault Config) := do
  return (← baseConfig o).map o.override

/-- Reads the catalog of a configuration. -/
def loadCatalog (path : String) : m (Except ProgramFault Catalog) := do
  match ← Host.readText path with
  | .error fault => return .error (.catalogFile path fault)
  | .ok text => return (Catalog.ofText text).mapError .catalog

/-! ## Output -/

/-- Makes a file for the entries, empty, with the directories around it. -/
def openArchive (path : Option String) : m (Except ProgramFault Unit) := do
  match path with
  | none => return .ok ()
  | some path =>
    let made ← match Path.parent? path with
      | some parent => Host.makeDirectories parent
      | none => pure (.ok ())
    match made with
    | .error fault => return .error (.output fault)
    | .ok () => return (← Host.writeText path "").mapError .output

/-- Writes the entries of a run to their file. -/
def writeArchive (path : Option String) (entries : List Entry) : m (Except ProgramFault Unit) := do
  match path with
  | none => return .ok ()
  | some path => return (← Host.writeText path (Entry.lines entries)).mapError .output

/-- What is printed of a year. -/
def printedYear (format : Format) (f : Filter) (r : Report) : String :=
  match format with
  | .text =>
    match renderYear r.year r.entries f with
    | some text => text ++ "\n\n"
    | none => ""
  | .jsonl => Entry.lines (f.apply r.entries)

/-- The family trees that end a run. -/
def printedTrees (o : Options) {σ : Type} (s : Simulation σ) : String :=
  if o.outputFormat = .text ∧ !o.noFamilyTree then
    String.join (s.dynasties.map fun d => d.renderTree s.roster ++ "\n")
  else ""

/-! ## The run -/

/-- Simulates and prints the years of a configuration. -/
def runYears (o : Options) (config : Config) (catalog : Catalog) :
    m (Except ProgramFault Unit) := do
  let outcome := (Simulation.ofConfig config catalog (Generator.seeded config.run.seed)).run
  let written ← writeArchive o.eventsOut (outcome.reports.flatMap (·.entries))
  match written with
  | .error fault => return .error fault
  | .ok () =>
    for report in outcome.reports do
      Host.print (printedYear o.outputFormat o.filter report)
    match outcome.fault with
    | some fault => return .error (.course fault)
    | none =>
      Host.print (printedTrees o outcome.last)
      return .ok ()

/-- Opens what the options name, then runs. -/
def runOptions (o : Options) : m (Except ProgramFault Unit) := do
  match ← loadConfig o with
  | .error fault => return .error fault
  | .ok config =>
    match ← loadCatalog config.run.catalog with
    | .error fault => return .error fault
    | .ok catalog =>
      match ← openArchive o.eventsOut with
      | .error fault => return .error fault
      | .ok () => runYears o config catalog

/-- How the program ends. -/
inductive ExitStatus where
  | success
  | failure (fault : ProgramFault)
  /-- The arguments are not understood. -/
  | usage

namespace ExitStatus

/-- The number that the system is told. -/
def code : ExitStatus → UInt32
  | .success => 0
  | .failure _ => 1
  | .usage => 2

/-- The line for the error output. -/
def message? : ExitStatus → Option String
  | .failure fault => some ("Error: " ++ fault.message)
  | _ => none

end ExitStatus

/-- The program. -/
def runProgram (args : List String) : m ExitStatus := do
  match Options.parse? args with
  | none => return .usage
  | some o =>
    match ← runOptions o with
    | .ok () => return .success
    | .error fault => return .failure fault

end Annals.Cli
