import OverrideLint.Command.Options
import OverrideLint.Command.Report
import OverrideLint.Command.Source
import OverrideLint.Edit.Apply
import OverrideLint.Files.Discovery
import OverrideLint.Rule.Check
import OverrideLint.Suppression
import OverrideLint.TypeIndex.Basic

/-! The check of a set of paths: read the settings, the sources and the stubs, repair
what can be repaired if asked to, and report what is left. -/
namespace OverrideLint

/-- Why a run ends early: a problem that is reported, or a fault. -/
inductive Halt
  | reported (problem : Problem)
  | crashed (message : WideString)
deriving DecidableEq, Repr

namespace Halt

def ofProblem? (problem : Option Problem) (message : WideString) : Halt :=
  match problem with
  | some problem => reported problem
  | none => crashed message

def ofLoadError (error : LoadError) : Halt :=
  ofProblem? (error.code?.map (⟨·, error.message, none⟩)) error.message

def ofSettingsError (error : SettingsError) : Halt :=
  ofProblem? (error.code?.map (⟨·, error.message, none⟩)) error.message

def ofStubError (error : StubError) : Halt := ofProblem? error.problem? error.message

def ofSourceError (error : SourceError) : Halt := ofProblem? error.problem? error.message

def entry : Halt → LogEntry
  | reported problem => ⟨.error, .command, problem.describe⟩
  | crashed message => ⟨.error, .command, "Unhandled exception: " ++ message⟩

end Halt

/-- What a run changes: the files, by repairing them, and what the index remembers. -/
structure Workspace where
  files : FileSystem
  index : TypeIndex := .empty

/-- A halt keeps the changes made so far. -/
abbrev Work := ExceptT Halt (StateT Workspace Logged)

namespace Work

def ofLogged {α : Type} (action : Logged α) : Work α :=
  ExceptT.mk fun workspace => ⟨(.ok action.value, workspace), action.log⟩

def tell (entries : List LogEntry) : Work Unit := ofLogged (Logged.tell entries)

def info (message : String) : Work Unit := tell [⟨.info, .command, message⟩]

def report (problem : Problem) : Work Unit := tell [(Halt.reported problem).entry]

/-- Runs an action that may fail, and says how a failure ends the run. -/
def attempt {ε α : Type} (halt : ε → Halt) (action : ExceptT ε Logged α) : Work α := do
  match ← ofLogged action.run with
  | .ok value => return value
  | .error error => throw (halt error)

/-- Runs an action on the index alone. -/
def onIndex {α : Type} (action : StateT TypeIndex Logged α) : Work α :=
  ExceptT.mk fun workspace => do
    let (value, index) ← action workspace.index
    return (.ok value, { workspace with index })

def files : Work FileSystem := return (← get).files

/-- Goes on after a problem that is reported, without a result. -/
def orReport {α : Type} (action : Work α) : Work (Option α) :=
  tryCatch (some <$> action) fun
    | .reported problem => do
      report problem
      return none
    | .crashed message => throw (.crashed message)

end Work

/-- What the settings silence. An identifier with a surrogate names no finding. -/
def Settings.suppressions (settings : Settings) : List Suppression :=
  (settings.suppress.filterMap (·.toString?)).map .everywhere

namespace Command

/-- The steps from the start of a run to where it reads the settings or the stubs. -/
def loadingSteps : Nat := 3

/-- The settings given on the command line, or the nearest ones. -/
def settingsPath? (fs : FileSystem) (options : Options) : Option String :=
  (Settings.givenPath options.config).or (Settings.discover fs ".")

def loadSettings (options : Options) : Work Settings := do
  match settingsPath? (← Work.files) options with
  | none =>
    Work.tell [⟨.debug, .command, "no configuration file found; using defaults"⟩]
    return {}
  | some path =>
    Work.info s!"using configuration {path}"
    Work.attempt Halt.ofSettingsError (Settings.load loadingSteps (← Work.files) path)

/-- A severity on the command line wins over the one in the settings. -/
def withSeverity (settings : Settings) (options : Options) : Settings :=
  match options.severity.bind fun name => Severity.ofText? name.toList with
  | some severity => { settings with severity }
  | none => settings

/-- Reads source files one by one, and counts those that cannot be read. -/
def loadSources (parser : Parser) : List String → Work (List SourceFile × Nat)
  | [] => return ([], 0)
  | path :: rest => do
    let load := SourceFile.load (← Work.files) parser path
    let first ← Work.orReport (Work.attempt Halt.ofSourceError load)
    let others ← loadSources parser rest
    match first with
    | some source => return (source :: others.1, others.2)
    | none => return (others.1, others.2 + 1)

def missingPath (path : String) : Problem := .source s!"no such file or directory: {path}"

def findSources (parser : Parser) (options : Options) (settings : Settings) :
    Work (List SourceFile × Nat) := do
  let found := settings.sources (← Work.files) options.paths
  let loaded ← loadSources parser found.1
  match found.2 with
  | some path => throw (.reported (missingPath path))
  | none =>
    Work.info s!"parsed {loaded.1.length} file(s)"
    return loaded

def loadStubs (origin : String) (stubs : List (WideString × Json)) : Work Unit := do
  let loaded := (← get).index.loadStubs origin stubs
  modify ({ · with index := loaded.1 })
  match loaded.2 with
  | some error => throw (.ofStubError error)
  | none => return

def indexSources : List SourceFile → Work Unit
  | [] => return
  | source :: rest => do
    let added ← Work.ofLogged ((← get).index.addSource source)
    modify ({ · with index := added.2 })
    indexSources rest

def buildIndex (options : Options) (settings : Settings) (sources : List SourceFile) :
    Work Unit := do
  loadStubs ((Settings.givenPath settings.path).getD "<config>") settings.types
  if let some path := Settings.givenPath options.types then
    let stubs ← Work.attempt Halt.ofLoadError
      (ExceptT.mk (pure (loadObject loadingSteps (← Work.files) path)))
    loadStubs path stubs
  if settings.indexSources && !options.noIndex then indexSources sources
  Work.info s!"declaration index holds {(← get).index.size} type(s)"

/-- The diagnostics of a file that no suppression covers. -/
def checkSource (settings : Settings) (source : SourceFile) :
    StateT TypeIndex Logged (List Diagnostic) := do
  let inline := Suppression.inline source.file source.text
  Logged.tell (Suppression.inlineLog source.file inline)
  let found ← Rule.check TypeIndex.resolve settings.severity source
  Logged.tell [Rule.summaryEntry source found]
  return Suppression.keep (settings.suppressions ++ inline) found

/-- The most rounds of repair for one file. -/
def maxPasses : Nat := 5

def writeSource (file : String) (text : Text) : Work Unit := do
  match (← Work.files).write file (Utf8.encode text) with
  | .ok files => modify ({ · with files })
  | .error cause =>
    throw (.reported (.source s!"cannot write {file}: {cause.message file}"))

def repairEntry (source : SourceFile) (result : FixResult) : LogEntry :=
  ⟨.info, .command, s!"{source.file}: applied {result.applied.length} fix(es), " ++
    s!"{result.skipped.length} skipped"⟩

/-- Repairs a file on disk until nothing changes, for a number of rounds. -/
def repair (parser : Parser) (settings : Settings) : Nat → SourceFile → Work SourceFile
  | 0, source => return source
  | rounds + 1, source => do
    let diagnostics ← Work.onIndex (checkSource settings source)
    let result := applyEdits source.text (fixesOf diagnostics)
    Work.tell result.log
    if !result.changed then return source
    else
      Work.tell [repairEntry source result]
      writeSource source.file result.text
      let parsed := SourceFile.parse parser source.file result.text
      let repaired ← Work.attempt (fun error => .crashed error.message) parsed
      repair parser settings rounds repaired

/-- What is known after the check of some files: the texts they were checked with, the
diagnostics, and how many could not be written. -/
structure Findings where
  texts : List (String × Text) := []
  diagnostics : List Diagnostic := []
  failures : Nat := 0

def repairIfAsked (parser : Parser) (options : Options) (settings : Settings)
    (source : SourceFile) : Work (SourceFile × Nat) := do
  if options.fix then
    match ← Work.orReport (repair parser settings maxPasses source) with
    | some repaired => return (repaired, 0)
    | none => return (source, 1)
  else return (source, 0)

/-- Checks files in order. A file met twice is shown with its latest text. -/
def checkSources (parser : Parser) (options : Options) (settings : Settings) :
    Findings → List SourceFile → Work Findings
  | findings, [] => return findings
  | findings, source :: rest => do
    let checked ← repairIfAsked parser options settings source
    let diagnostics ← Work.onIndex (checkSource settings checked.1)
    checkSources parser options settings
      ⟨(checked.1.file, checked.1.text) :: findings.texts, findings.diagnostics ++ diagnostics,
        findings.failures + checked.2⟩ rest

/-- What a run has to show: the report, and its exit status if the report is whole. -/
structure Result where
  report : Printed
  status : Nat

def exitStatus (failures errors : Nat) : Nat :=
  if 0 < failures then 2 else if 0 < errors then 1 else 0

def check (parser : Parser) (coloured : Bool) (options : Options) : Work Result := do
  let settings := withSeverity (← loadSettings options) options
  let loaded ← findSources parser options settings
  buildIndex options settings loaded.1
  let findings ← checkSources parser options settings {} loaded.1
  let format := Format.ofName options.format
  return ⟨Report.print format ⟨coloured⟩ findings.texts findings.diagnostics,
    exitStatus (loaded.2 + findings.failures) (Report.errorCount findings.diagnostics)⟩

end Command
end OverrideLint
