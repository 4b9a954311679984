import Annals.Cli.Program
import Annals.Proofs.Cli.Disk
import Annals.Proofs.Json.Values
import Annals.Proofs.Simulation.Runs
/-!
# What the program tells

The options that select what is shown have no part in the history: the file of entries gets all of
it, and what is printed is taken from the same entries. Whatever keeps a run from beginning does so
before anything has been written or printed.

* `Filter.shown`, `Report.block`: the years of which something is shown, and one of them as text.
* `Disk.answer`, `Disk.after`: a program on a disk.
* `Disk.Told`: what a run leaves in its file and on the screen.
* `runProgram_tells`: how the program ends, and what it tells until then.
-/

namespace Annals

/-! ## What is shown -/

/-- A year as text: its heading, its entries on the lines below, and an empty line. -/
def Report.block (r : Report) : String :=
  "Year " ++ Text.ofInt r.year.toInt ++ "\n" ++
    String.join (r.entries.map fun e => e.render ++ "\n") ++ "\n"

/-- Items on lines of their own are items with line breaks between them and one behind the last. -/
theorem intercalate_newline {items : List String} (h : items ≠ []) :
    String.intercalate "\n" items ++ "\n" = String.join (items.map (· ++ "\n")) := by
  induction items with
  | nil => exact absurd rfl h
  | cons item rest ih =>
    rw [List.map_cons, String.join_cons]
    cases rest with
    | nil => simp
    | cons next rest =>
      rw [← ih (List.cons_ne_nil _ _), String.intercalate_cons_cons]
      simp only [String.append_assoc]

namespace Filter

variable (f : Filter)

/-- The reports with the entries that are shown, without those of which nothing is shown. -/
def shown (reports : List Report) : List Report :=
  (reports.map fun r => { r with entries := f.apply r.entries }).filter fun r => !r.entries.isEmpty

theorem shown_cons (r : Report) (rest : List Report) :
    f.shown (r :: rest) =
      if f.apply r.entries = [] then f.shown rest
      else { r with entries := f.apply r.entries } :: f.shown rest := by
  unfold shown
  rw [List.map_cons, List.filter_cons]
  by_cases hnone : f.apply r.entries = []
  · simp [hnone]
  · simp [hnone]

/-- What is shown of the reports is what is shown of their entries. -/
theorem flatMap_shown (reports : List Report) :
    (f.shown reports).flatMap (·.entries) = f.apply (reports.flatMap (·.entries)) := by
  induction reports with
  | nil => rfl
  | cons r rest ih =>
    have happend : f.apply (r.entries ++ rest.flatMap (·.entries)) =
        f.apply r.entries ++ f.apply (rest.flatMap (·.entries)) := List.filter_append ..
    rw [shown_cons, List.flatMap_cons, happend, ← ih]
    split
    case isTrue hnone => rw [hnone, List.nil_append]
    case isFalse hsome => rw [List.flatMap_cons]

/-- The years that are shown are those with an entry that is shown. -/
theorem map_year_shown (reports : List Report) :
    (f.shown reports).map (·.year) =
      (reports.filter fun r => r.entries.any f.allows).map (·.year) := by
  induction reports with
  | nil => rfl
  | cons r rest ih =>
    have hany : r.entries.any f.allows = true ↔ f.apply r.entries ≠ [] := by
      simp [apply, List.filter_eq_nil_iff]
    rw [shown_cons, List.filter_cons]
    split
    case isTrue hnone => rw [if_neg (fun h => hany.1 h hnone), ih]
    case isFalse hsome => rw [if_pos (hany.2 hsome), List.map_cons, List.map_cons, ih]

end Filter

namespace Cli

/-! ## Printing -/

theorem printedYear_text (f : Filter) (r : Report) :
    printedYear .text f r =
      if f.apply r.entries = [] then ""
      else Report.block { r with entries := f.apply r.entries } := by
  unfold printedYear renderYear
  cases hshown : f.apply r.entries with
  | nil => rfl
  | cons e rest =>
    have hsome : (e :: rest).map Entry.render ≠ [] := by simp
    have hlines := intercalate_newline hsome
    rw [List.map_map] at hlines
    rw [if_neg (List.cons_ne_nil e rest)]
    unfold Report.block
    calc _ = "Year " ++ Text.ofInt r.year.toInt ++ "\n" ++
          (String.intercalate "\n" ((e :: rest).map Entry.render) ++ "\n") ++ "\n" := by
            simp only [String.append_assoc]; rfl
      _ = _ := by rw [hlines]; rfl

/-- As text, the reports are the blocks of what is shown of them. -/
theorem join_printedYear_text (f : Filter) (reports : List Report) :
    String.join (reports.map (printedYear .text f)) =
      String.join ((f.shown reports).map Report.block) := by
  induction reports with
  | nil => rfl
  | cons r rest ih =>
    rw [List.map_cons, String.join_cons, ih, printedYear_text, f.shown_cons]
    split
    case isTrue hnone => rw [String.empty_append]
    case isFalse hsome => rw [List.map_cons, String.join_cons]

/-- As lines, the reports are the lines of what is shown of their entries. -/
theorem join_printedYear_jsonl (f : Filter) (reports : List Report) :
    String.join (reports.map (printedYear .jsonl f)) =
      Entry.lines (f.apply (reports.flatMap (·.entries))) := by
  induction reports with
  | nil => rfl
  | cons r rest ih =>
    rw [List.map_cons, String.join_cons, ih, List.flatMap_cons]
    unfold printedYear Entry.lines Filter.apply
    rw [List.filter_append, List.map_append, String.join_append]

namespace Disk

variable {α β : Type} {d : Disk}

/-! ## Programs on a disk -/

/-- What a program answers on a disk. -/
def answer (d : Disk) (program : StateM Disk α) : α := (program.run d).1

/-- The disk after a program. -/
def after (d : Disk) (program : StateM Disk α) : Disk := (program.run d).2

@[simp] theorem after_pure (a : α) : d.after (pure a : StateM Disk α) = d := rfl

@[simp] theorem answer_bind (x : StateM Disk α) (f : α → StateM Disk β) :
    d.answer (x >>= f) = (d.after x).answer (f (d.answer x)) := rfl

@[simp] theorem after_bind (x : StateM Disk α) (f : α → StateM Disk β) :
    d.after (x >>= f) = (d.after x).after (f (d.answer x)) := rfl

@[simp] theorem answer_readText (path : String) :
    d.answer (Host.readText path) = d.readText path := rfl

@[simp] theorem after_readText (path : String) :
    d.after (Host.readText path : StateM Disk _) = d := rfl

@[simp] theorem after_isPresent (path : String) :
    d.after (Host.isPresent path : StateM Disk _) = d := rfl

/-- The ways in which a change of the disk can end. -/
inductive Attempted (change : Disk → Except FileFault Disk) (d : Disk) :
    Except FileFault Unit → Disk → Prop where
  | refused (fault : FileFault) (h : change d = .error fault) :
      Attempted change d (.error fault) d
  | made (d' : Disk) (h : change d = .ok d') : Attempted change d (.ok ()) d'

theorem attempted (change : Disk → Except FileFault Disk) (d : Disk) :
    Attempted change d (d.answer (attempt change)) (d.after (attempt change)) := by
  unfold answer after attempt StateT.run
  dsimp only
  cases h : change d with
  | error fault => exact .refused fault h
  | ok d' => exact .made d' h

/-- Printing a text for each item prints the texts in a row. -/
theorem after_forIn_print (text : α → String) (items : List α) :
    d.after (forIn items PUnit.unit fun item _ => do
      Host.print (text item)
      pure (.yield PUnit.unit) : StateM Disk PUnit) =
      { d with output := d.output ++ String.join (items.map text) } := by
  induction items generalizing d with
  | nil => simp
  | cons item rest ih =>
    rw [List.forIn_cons, List.map_cons, String.join_cons, ← String.append_assoc]
    exact ih

end Disk

/-! ## Loading -/

section Loading

variable (o : Options) (d : Disk)

theorem after_readConfig (path : String) : d.after (readConfig path : StateM Disk _) = d := by
  unfold readConfig
  rw [Disk.after_bind, Disk.answer_readText, Disk.after_readText]
  cases d.readText path with
  | error fault => rfl
  | ok text =>
    dsimp only
    cases Config.ofToml? text <;> rfl

/-- Loading the configuration leaves the disk as it is. -/
theorem after_loadConfig : d.after (loadConfig o : StateM Disk _) = d := by
  unfold loadConfig baseConfig
  rw [Disk.after_bind, Disk.after_pure]
  cases o.config with
  | some path => exact after_readConfig d path
  | none =>
    show d.after ((Host.isPresent defaultConfigPath : StateM Disk Bool) >>= _) = d
    rw [Disk.after_bind, Disk.after_isPresent]
    cases d.answer (Host.isPresent defaultConfigPath) with
    | true => exact after_readConfig d _
    | false => rfl

/-- Loading the catalog leaves the disk as it is. -/
theorem after_loadCatalog (path : String) : d.after (loadCatalog path : StateM Disk _) = d := by
  unfold loadCatalog
  rw [Disk.after_bind, Disk.answer_readText, Disk.after_readText]
  cases d.readText path <;> rfl

end Loading

/-! ## The file of entries -/

section Archive

/-- Writes a text to a file of the program. -/
def put (path text : String) : StateM Disk (Except ProgramFault Unit) := do
  return (← Host.writeText path text).mapError .output

/-- A run that prints nothing and, if it succeeds, leaves a text in a file. -/
structure Puts (d : Disk) (path text : String) (result : Except ProgramFault Unit) (d' : Disk) :
    Prop where
  written : result = .ok () → d'.Written path text
  output : d'.output = d.output

variable {d : Disk} {path text : String}

theorem puts_put (d : Disk) (path text : String) :
    Puts d path text (d.answer (put path text)) (d.after (put path text)) := by
  have hview := Disk.attempted (fun d => d.writeText path text) d
  show Puts d path text (Except.mapError _ (d.answer (Disk.attempt fun d => d.writeText path text)))
    (d.after (Disk.attempt fun d => d.writeText path text))
  generalize d.answer (Disk.attempt _) = result, d.after (Disk.attempt _) = d' at hview ⊢
  cases hview with
  | refused fault h => exact ⟨nofun, rfl⟩
  | made d' h =>
    obtain ⟨hwritten, houtput⟩ := Disk.written_of_writeText h
    exact ⟨fun _ => hwritten, houtput⟩

/-- A file that has been written takes another text. -/
theorem answer_put (h : d.Written path text) (text' : String) :
    d.answer (put path text') = .ok () := by
  obtain ⟨written, hwritten⟩ := h.writeText text'
  have hview := Disk.attempted (fun d => d.writeText path text') d
  show Except.mapError _ (d.answer (Disk.attempt fun d => d.writeText path text')) = .ok ()
  generalize d.answer (Disk.attempt _) = result, d.after (Disk.attempt _) = d' at hview ⊢
  cases hview with
  | refused fault h => rw [hwritten] at h; cases h
  | made d' h => rfl

/-- Opening the file of entries makes it empty. -/
theorem puts_openArchive (d : Disk) (path : String) :
    Puts d path "" (d.answer (openArchive (some path))) (d.after (openArchive (some path))) := by
  unfold openArchive
  dsimp only
  cases Path.parent? path with
  | none => exact puts_put d path ""
  | some parent =>
    dsimp only
    rw [Disk.answer_bind, Disk.after_bind]
    have hview := Disk.attempted (fun d => d.makeDirectories parent) d
    change Disk.Attempted _ _ (d.answer (Host.makeDirectories parent))
      (d.after (Host.makeDirectories parent)) at hview
    generalize d.answer (Host.makeDirectories parent) = result,
      d.after (Host.makeDirectories parent) = d' at hview ⊢
    cases hview with
    | refused fault h => exact ⟨nofun, rfl⟩
    | made d' h =>
      obtain ⟨hwritten, houtput⟩ := puts_put d' path ""
      exact ⟨hwritten, houtput.trans (Disk.output_makeDirectories h)⟩

theorem output_openArchive (d : Disk) (path : Option String) :
    (d.after (openArchive path)).output = d.output := by
  cases path with
  | none => rfl
  | some path => exact (puts_openArchive d path).output

end Archive

/-! ## The run -/

/-- The run of a configuration over a catalog. -/
def history (config : Config) (catalog : Catalog) : Simulation.Outcome Generator :=
  (Simulation.ofConfig config catalog (Generator.seeded config.run.seed)).run

/-- All entries of a run, year by year. -/
def chronicle (config : Config) (catalog : Catalog) : List Entry :=
  (history config catalog).reports.flatMap (·.entries)

/-- What a run leaves of its history. The file of entries, if there is one, gets the line of each
entry of each year; the selection of the options counts for what is printed only. -/
structure Disk.Told (d : Disk) (o : Options) (config : Config) (catalog : Catalog) (d' : Disk) :
    Prop where
  archive : ∀ path, o.eventsOut = some path → ∃ parts,
    d'.locate path = .ok (.file parts (Entry.lines (chronicle config catalog)).toUTF8)
  noArchive : o.eventsOut = none → d'.files = d.files ∧ d'.directories = d.directories
  lines : o.outputFormat = .jsonl →
    d'.output = d.output ++ Entry.lines (o.filter.apply (chronicle config catalog))
  blocks : o.outputFormat = .text →
    d'.output = d.output ++
      String.join ((o.filter.shown (history config catalog).reports).map Report.block) ++
        printedTrees o (history config catalog).last
  shownEntries : (o.filter.shown (history config catalog).reports).flatMap (·.entries) =
    o.filter.apply (chronicle config catalog)
  shownYears : (o.filter.shown (history config catalog).reports).map (·.year) =
    ((history config catalog).reports.filter fun r => r.entries.any o.filter.allows).map (·.year)

/-- The options without those that select what is shown. -/
def Options.unselected (o : Options) : Options :=
  { o with categories := [], noWorldEvents := false, noFamilyEvents := false, format := none
           noFamilyTree := false, logLevel := none }

variable {o : Options} {d : Disk} {config : Config} {catalog : Catalog}

/-- A run without a fault ends well once its entries have been written. -/
theorem runYears_of_written (hfault : (history config catalog).fault = none)
    (hwritten : d.answer (writeArchive o.eventsOut (chronicle config catalog)) = .ok ()) :
    d.answer (runYears o config catalog) = .ok () ∧
      d.after (runYears o config catalog) =
        { d.after (writeArchive o.eventsOut (chronicle config catalog)) with
          output := (d.after (writeArchive o.eventsOut (chronicle config catalog))).output ++
            String.join ((history config catalog).reports.map
              (printedYear o.outputFormat o.filter)) ++
            printedTrees o (history config catalog).last } := by
  unfold chronicle history at *
  unfold runYears
  dsimp only
  rw [Disk.answer_bind, Disk.after_bind, hwritten]
  dsimp only
  rw [Disk.answer_bind, Disk.after_bind, Disk.after_forIn_print, hfault]
  exact ⟨rfl, rfl⟩

/-- The entries can be written to the file that has been opened for them. -/
theorem puts_writeArchive (hopened : ∀ path, o.eventsOut = some path → d.Written path "")
    (entries : List Entry) :
    d.answer (writeArchive o.eventsOut entries) = .ok () ∧
      (∀ path, o.eventsOut = some path →
        (d.after (writeArchive o.eventsOut entries)).Written path (Entry.lines entries)) ∧
      (d.after (writeArchive o.eventsOut entries)).output = d.output := by
  cases hpath : o.eventsOut with
  | none => exact ⟨rfl, nofun, rfl⟩
  | some path =>
    have hanswer := answer_put (hopened path hpath) (Entry.lines entries)
    obtain ⟨hwritten, houtput⟩ := puts_put d path (Entry.lines entries)
    refine ⟨hanswer, ?_, houtput⟩
    rintro _ ⟨⟩
    exact hwritten hanswer

/-- What is printed of the years, in either format. -/
theorem told_of_after {d₀ d' : Disk} (houtput : d.output = d₀.output)
    (hsame : o.eventsOut = none → d.files = d₀.files ∧ d.directories = d₀.directories)
    (hwritten : ∀ path, o.eventsOut = some path →
      d.Written path (Entry.lines (chronicle config catalog)))
    (hafter : d' = { d with
      output := d.output ++
        String.join ((history config catalog).reports.map (printedYear o.outputFormat o.filter)) ++
        printedTrees o (history config catalog).last }) :
    d₀.Told o config catalog d' := by
  subst hafter
  refine ⟨?_, hsame, ?_, ?_, o.filter.flatMap_shown _, o.filter.map_year_shown _⟩
  · intro path hpath
    rw [Disk.locate_output]
    exact (hwritten path hpath).located
  · intro hformat
    have htrees : printedTrees o (history config catalog).last = "" := by
      unfold printedTrees
      rw [hformat]
      rfl
    show d.output ++ _ ++ _ = _
    rw [hformat, htrees, join_printedYear_jsonl, String.append_empty, houtput]
    rfl
  · intro hformat
    show d.output ++ _ ++ _ = _
    rw [hformat, join_printedYear_text, houtput]

/-! ## The program -/

/-- A catalog that has been loaded fits its follow-ups. -/
theorem loaded_of_loadCatalog {path : String} (h : d.answer (loadCatalog path) = .ok catalog) :
    catalog.Loaded := by
  unfold loadCatalog at h
  rw [Disk.answer_bind, Disk.answer_readText] at h
  cases hread : d.readText path with
  | error fault => rw [hread] at h; cases h
  | ok text =>
    rw [hread] at h
    change (Catalog.ofText text).mapError ProgramFault.catalog = .ok catalog at h
    unfold Catalog.ofText at h
    split at h
    case h_1 document _ =>
      cases hdocument : Catalog.ofJson document.distinct with
      | error fault => rw [hdocument] at h; cases h
      | ok loaded =>
        rw [hdocument] at h
        cases h
        exact ⟨_, hdocument⟩
    case h_2 => cases h

theorem fault_history (hcatalog : catalog.Loaded) : (history config catalog).fault = none :=
  Simulation.fault_runFor (Simulation.sound_ofConfig config hcatalog _)
    (Simulation.onTime_ofConfig config catalog _) _

/-- The ways in which a run of the options can end. -/
inductive Ended (o : Options) (d : Disk) : Except ProgramFault Unit → Disk → Prop where
  /-- There is no configuration. -/
  | noConfig (fault : ProgramFault) (hconfig : d.answer (loadConfig o) = .error fault) :
      Ended o d (.error fault) d
  /-- There is no catalog. -/
  | noCatalog (config : Config) (fault : ProgramFault)
      (hconfig : d.answer (loadConfig o) = .ok config)
      (hcatalog : d.answer (loadCatalog config.run.catalog) = .error fault) :
      Ended o d (.error fault) d
  /-- The file of entries cannot be opened. -/
  | noArchive (config : Config) (catalog : Catalog) (fault : ProgramFault)
      (hconfig : d.answer (loadConfig o) = .ok config)
      (hcatalog : d.answer (loadCatalog config.run.catalog) = .ok catalog)
      (harchive : d.answer (openArchive o.eventsOut) = .error fault) :
      Ended o d (.error fault) (d.after (openArchive o.eventsOut))
  /-- The whole history is told. -/
  | told (config : Config) (catalog : Catalog) (hconfig : d.answer (loadConfig o) = .ok config)
      (hcatalog : d.answer (loadCatalog config.run.catalog) = .ok catalog)
      (harchive : d.answer (openArchive o.eventsOut) = .ok ()) (written d' : Disk)
      (hwritten : written = (d.after (openArchive o.eventsOut)).after
        (writeArchive o.eventsOut (chronicle config catalog)))
      (htold : d.Told o config catalog d')
      (hfiles : d'.files = written.files) (hdirectories : d'.directories = written.directories) :
      Ended o d (.ok ()) d'

theorem ended (o : Options) (d : Disk) :
    Ended o d (d.answer (runOptions o)) (d.after (runOptions o)) := by
  unfold runOptions
  rw [Disk.answer_bind, Disk.after_bind, after_loadConfig]
  cases hconfig : d.answer (loadConfig o) with
  | error fault => exact .noConfig fault hconfig
  | ok config =>
    dsimp only
    rw [Disk.answer_bind, Disk.after_bind, after_loadCatalog]
    cases hcatalog : d.answer (loadCatalog config.run.catalog) with
    | error fault => exact .noCatalog config fault hconfig hcatalog
    | ok catalog =>
      dsimp only
      rw [Disk.answer_bind, Disk.after_bind]
      cases harchive : d.answer (openArchive o.eventsOut) with
      | error fault => exact .noArchive config catalog fault hconfig hcatalog harchive
      | ok _ =>
        dsimp only
        have hopened : ∀ path, o.eventsOut = some path →
            (d.after (openArchive o.eventsOut)).Written path "" := by
          intro path hpath
          rw [hpath] at harchive ⊢
          exact (puts_openArchive d path).written harchive
        have hfault : (history config catalog).fault = none :=
          fault_history (loaded_of_loadCatalog hcatalog)
        obtain ⟨hok, hwritten, houtput⟩ := puts_writeArchive hopened (chronicle config catalog)
        obtain ⟨hanswer, hafter⟩ := runYears_of_written hfault hok
        rw [hanswer]
        refine .told config catalog hconfig hcatalog harchive _ _ rfl ?_ ?_ ?_
        · refine told_of_after (houtput.trans (output_openArchive d _)) ?_ hwritten hafter
          intro hnone
          rw [hnone]
          exact ⟨rfl, rfl⟩
        · rw [hafter]
        · rw [hafter]

namespace Ended

variable {result : Except ProgramFault Unit} {d' : Disk} {fault : ProgramFault}

theorem of_noConfig (h : Ended o d result d') (hconfig : d.answer (loadConfig o) = .error fault) :
    result = .error fault ∧ d' = d := by
  cases h <;> simp_all

theorem of_noCatalog (h : Ended o d result d') (hconfig : d.answer (loadConfig o) = .ok config)
    (hcatalog : d.answer (loadCatalog config.run.catalog) = .error fault) :
    result = .error fault ∧ d' = d := by
  cases h <;> simp_all

theorem of_noArchive (h : Ended o d result d') (hconfig : d.answer (loadConfig o) = .ok config)
    (hcatalog : d.answer (loadCatalog config.run.catalog) = .ok catalog)
    (harchive : d.answer (openArchive o.eventsOut) = .error fault) :
    result = .error fault ∧ d'.output = d.output := by
  cases h <;> simp_all [output_openArchive]

theorem of_archive (h : Ended o d result d') (hconfig : d.answer (loadConfig o) = .ok config)
    (hcatalog : d.answer (loadCatalog config.run.catalog) = .ok catalog)
    (harchive : d.answer (openArchive o.eventsOut) = .ok ()) :
    result = .ok () ∧ d.Told o config catalog d' := by
  cases h <;> simp_all

/-- Options that differ in what they show end alike and leave the same files. -/
theorem alike {o' : Options} {result' : Except ProgramFault Unit} {d'' : Disk}
    (hsame : o'.unselected = o.unselected) (h : Ended o d result d')
    (h' : Ended o' d result' d'') :
    result' = result ∧ d''.files = d'.files ∧ d''.directories = d'.directories := by
  have hload : d.answer (loadConfig o') = d.answer (loadConfig o) := by
    change d.answer (loadConfig o'.unselected) = d.answer (loadConfig o.unselected)
    rw [hsame]
  have harchive : o'.eventsOut = o.eventsOut := by
    change o'.unselected.eventsOut = o.unselected.eventsOut
    rw [hsame]
  cases h <;> cases h' <;> simp_all

end Ended

/-- The program answers as its options do. -/
theorem ended_runProgram {args : List String} (hargs : Options.parse? args = some o) (d : Disk) :
    ∃ result, Ended o d result (d.after (runProgram args)) ∧
      (∀ fault, result = .error fault → d.answer (runProgram args) = .failure fault) ∧
      (result = .ok () → d.answer (runProgram args) = .success) := by
  have hended := ended o d
  unfold runProgram
  rw [hargs]
  dsimp only
  rw [Disk.answer_bind, Disk.after_bind]
  cases hresult : d.answer (runOptions o) with
  | error fault =>
    rw [hresult] at hended
    exact ⟨_, hended, fun _ h => congrArg _ (Except.error.inj h), nofun⟩
  | ok _ =>
    rw [hresult] at hended
    exact ⟨_, hended, nofun, fun _ => rfl⟩

/-- Which entries the options show. Categories count for world events only. -/
theorem allows_filter (o : Options) :
    (∀ e, o.filter.allows (.world e) = true ↔
      o.noWorldEvents = false ∧ (o.categories = [] ∨ e.category ∈ o.categories)) ∧
    (∀ e, o.filter.allows (.family e) = true ↔ o.noFamilyEvents = false) := by
  constructor
  · intro e
    simp [Filter.allows, Options.filter]
  · intro e
    simp [Filter.allows, Options.filter]

/-- Without a configuration or a catalog nothing is written or printed. Otherwise the file of
entries is opened, and if that succeeds the whole history is told: all of it in the file, what is
selected of it on the screen. Options that differ in the selection only have the same history and
leave the same files. -/
theorem runProgram_tells {args : List String} (hargs : Options.parse? args = some o) (d : Disk) :
    (∀ fault, d.answer (loadConfig o) = .error fault →
      d.answer (runProgram args) = .failure fault ∧ d.after (runProgram args) = d) ∧
    (∀ config, d.answer (loadConfig o) = .ok config →
      (∀ fault, d.answer (loadCatalog config.run.catalog) = .error fault →
        d.answer (runProgram args) = .failure fault ∧ d.after (runProgram args) = d) ∧
      ∀ catalog, d.answer (loadCatalog config.run.catalog) = .ok catalog →
        (∀ fault, d.answer (openArchive o.eventsOut) = .error fault →
          d.answer (runProgram args) = .failure fault ∧
            (d.after (runProgram args)).output = d.output) ∧
        (d.answer (openArchive o.eventsOut) = .ok () →
          d.answer (runProgram args) = .success ∧
            d.Told o config catalog (d.after (runProgram args)))) ∧
    (∀ e, o.filter.allows (.world e) = true ↔
      o.noWorldEvents = false ∧ (o.categories = [] ∨ e.category ∈ o.categories)) ∧
    (∀ e, o.filter.allows (.family e) = true ↔ o.noFamilyEvents = false) ∧
    (∀ args' o', Options.parse? args' = some o' → o'.unselected = o.unselected →
      d.answer (runProgram args') = d.answer (runProgram args) ∧
        (d.after (runProgram args')).files = (d.after (runProgram args)).files ∧
        (d.after (runProgram args')).directories = (d.after (runProgram args)).directories) := by
  obtain ⟨result, hended, hfailure, hsuccess⟩ := ended_runProgram hargs d
  refine ⟨?_, ?_, (allows_filter o).1, (allows_filter o).2, ?_⟩
  · intro fault hconfig
    obtain ⟨hresult, hdisk⟩ := hended.of_noConfig hconfig
    exact ⟨hfailure fault hresult, hdisk⟩
  · intro config hconfig
    refine ⟨fun fault hcatalog => ?_, fun catalog hcatalog =>
      ⟨fun fault harchive => ?_, fun harchive => ?_⟩⟩
    · obtain ⟨hresult, hdisk⟩ := hended.of_noCatalog hconfig hcatalog
      exact ⟨hfailure fault hresult, hdisk⟩
    · obtain ⟨hresult, houtput⟩ := hended.of_noArchive hconfig hcatalog harchive
      exact ⟨hfailure fault hresult, houtput⟩
    · obtain ⟨hresult, htold⟩ := hended.of_archive hconfig hcatalog harchive
      exact ⟨hsuccess hresult, htold⟩
  · intro args' o' hargs' hsame
    obtain ⟨result', hended', hfailure', hsuccess'⟩ := ended_runProgram hargs' d
    obtain ⟨rfl, hfiles⟩ := Ended.alike hsame hended hended'
    refine ⟨?_, hfiles⟩
    cases result' with
    | error fault => rw [hfailure fault rfl, hfailure' fault rfl]
    | ok _ => rw [hsuccess rfl, hsuccess' rfl]

/-! ## A small run -/

/-- A catalog with a bell that tolls every year. -/
def tollDocument : Json :=
  .obj [("events", .obj [("omens", .obj [("bell", .obj [("name", .str "Bell"),
    ("conditions", .arr [.obj [("type", .str "year"), ("operator", .str ">="), ("value", .int 0)]]),
    ("effects", .arr [])])])])]

/-- The catalog that the document is read as. -/
def toll : Catalog where
  categories := [{
    name := "omens"
    events := [{
      id := "bell"
      name := "Bell"
      description := ""
      category := "omens"
      conditions := [.year .ge 0]
      effects := []
      followUps := []
      followUpOnly := false
      details := {} }] }]

/-- A disk with the catalog where it is looked for. -/
def shelf : Disk := .ofFiles [("data/event_definitions.json", tollDocument.compact.toUTF8)]

/-- Omens are printed as lines, and all entries go to a file in a directory far from the catalog. -/
def archiving : Options :=
  { categories := ["omens"], format := some .jsonl, eventsOut := some "/var/annals/all.jsonl" }

/-- The arguments that say so. -/
def archivingArguments : List String :=
  ["--format=jsonl", "--category", "omens", "--events-out", "/var/annals/all.jsonl"]

theorem exact_tollDocument : Json.Exact Json.maxDepth tollDocument := by
  have hcondition : ∀ depth, Json.Exact (depth + 1)
      (.obj [("type", .str "year"), ("operator", .str ">="), ("value", .int 0)]) := by
    intro depth
    refine .obj ?_
    simp only [List.forall_mem_cons, List.not_mem_nil, false_imp_iff, implies_true, and_true]
    exact ⟨.str _, .str _, .int (by decide) (by decide)⟩
  have hbell : ∀ depth, Json.Exact (depth + 3) (.obj [("name", .str "Bell"),
      ("conditions", .arr [.obj [("type", .str "year"), ("operator", .str ">="),
        ("value", .int 0)]]), ("effects", .arr [])]) := by
    intro depth
    refine .obj ?_
    simp only [List.forall_mem_cons, List.not_mem_nil, false_imp_iff, implies_true, and_true]
    exact ⟨.str _, .arr (List.forall_mem_singleton.2 (hcondition depth)),
      .arr (List.forall_mem_nil _)⟩
  exact .obj (List.forall_mem_singleton.2 (.obj (List.forall_mem_singleton.2
    (.obj (List.forall_mem_singleton.2 (hbell _))))))

theorem loadCatalog_shelf :
    shelf.answer (loadCatalog "data/event_definitions.json") = .ok toll := by
  have hlocate : shelf.locate "data/event_definitions.json" =
      .ok (.file ["chronicle", "data", "event_definitions.json"] tollDocument.compact.toUTF8) := rfl
  have hname : Path.demandsDirectory "data/event_definitions.json" = false := rfl
  have htext : String.fromUTF8? tollDocument.compact.toUTF8 = some tollDocument.compact :=
    dif_pos tollDocument.compact.isValidUTF8
  have hread : shelf.readText "data/event_definitions.json" = .ok tollDocument.compact := by
    unfold Disk.readText
    rw [hlocate, hname]
    dsimp only
    rw [htext]
    rfl
  have hcatalog : Catalog.ofText tollDocument.compact = .ok toll := by
    unfold Catalog.ofText
    rw [Json.parse?_compact exact_tollDocument]
    rfl
  unfold loadCatalog
  rw [Disk.answer_bind, Disk.answer_readText, hread]
  dsimp only
  rw [hcatalog]
  rfl

theorem runProgram_tells_shelf :
    Options.parse? archivingArguments = some archiving ∧
    shelf.answer (runProgram archivingArguments) = .success ∧
    shelf.Told archiving {} toll (shelf.after (runProgram archivingArguments)) := by
  have harguments : Options.parse? archivingArguments = some archiving := rfl
  have hconfig : shelf.answer (loadConfig archiving) = .ok {} := rfl
  have harchive : shelf.answer (openArchive archiving.eventsOut) = .ok () := rfl
  obtain ⟨-, hloaded, -⟩ := runProgram_tells harguments shelf
  exact ⟨harguments, ((hloaded {} hconfig).2 toll loadCatalog_shelf).2 harchive⟩

end Cli

end Annals
