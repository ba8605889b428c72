import OverrideLint.Diagnostic
import OverrideLint.Files.FileSystem
import OverrideLint.Json.Reader
import OverrideLint.Log
import OverrideLint.Problem

/-! The settings of a run: a JSON object in a file, found at or above the working
directory. -/
namespace OverrideLint

structure Settings where
  severity : Severity := .error
  suppress : List WideString := []
  exclude : List WideString := []
  extensions : List WideString := [".ts", ".tsx", ".mts", ".cts"]
  indexSources : Bool := true
  types : List (WideString × Json) := []
  path : Option String := none

/-- Why a file gives no JSON object. -/
inductive LoadError
  | nullInPath
  | notFound (path : String)
  | unreadable (path : String) (cause : PathError)
  | undecodable (cause : Utf8.DecodeError)
  | malformed (path : String) (fault : Json.Fault) (line : Nat)
  | oversized (digits : Nat)
  | tooDeep (innermost : Json.Nesting)
  | notAnObject (path : String)
deriving DecidableEq, Repr

namespace LoadError

def message : LoadError → String
  | nullInPath => Path.nullMessage
  | notFound path => s!"configuration file not found: {path}"
  | unreadable path cause => s!"cannot read {path}: {cause.message path}"
  | undecodable cause => cause.message
  | malformed path fault line => s!"{path}: invalid JSON at line {line}: {fault.message}"
  | oversized digits => Json.oversizedMessage digits
  | tooDeep innermost => Json.tooDeepMessage innermost
  | notAnObject path => s!"{path}: top-level value must be an object"

/-- Paths that no file can have, undecodable bytes, oversized numbers and values nested
too deep are faults that nobody reports. -/
def code? : LoadError → Option ErrorCode
  | notFound _ => some .configNotFound
  | unreadable .. => some .configNotFound
  | malformed .. => some .configInvalidJson
  | notAnObject _ => some .configInvalidValue
  | nullInPath => none
  | undecodable _ => none
  | oversized _ => none
  | tooDeep _ => none

end LoadError

/-- Why an object gives no settings. -/
inductive SettingsError
  | unloadable (cause : LoadError)
  | wrongKind (key expected found : String)
  | unknownSeverity (value : WideString)
  | notStrings (key : String)
deriving DecidableEq, Repr

namespace SettingsError

def message : SettingsError → WideString
  | unloadable cause => cause.message
  | wrongKind key expected found => s!"'{key}' must be of type {expected}, got {found}"
  | unknownSeverity value => Severity.unknownMessage value
  | notStrings key => s!"'{key}' must be a list of strings"

def code? : SettingsError → Option ErrorCode
  | unloadable cause => cause.code?
  | _ => some .configInvalidValue

end SettingsError

/-- The object in a JSON file. Every step of a run on the way to the file takes a level
from the nesting that is left for it. -/
def loadObject (steps : Nat) (fs : FileSystem) (path : String) :
    Except LoadError (List (WideString × Json)) :=
  if Path.hasNull path then .error .nullInPath
  else match fs.read path with
    | .error .notFound => .error (.notFound path)
    | .error cause => .error (.unreadable path cause)
    | .ok content =>
      match Utf8.decode content with
      | .error cause => .error (.undecodable cause)
      | .ok text =>
        match Json.parseWithin (Json.maxDepth - steps) (Text.normalizeBreaks text) with
        | .error (.malformed fault line) => .error (.malformed path fault line)
        | .error (.oversized digits) => .error (.oversized digits)
        | .error (.tooDeep innermost) => .error (.tooDeep innermost)
        | .ok (.object fields) => .ok fields
        | .ok _ => .error (.notAnObject path)

namespace Settings

def knownKeys : List WideString :=
  ["severity", "suppress", "exclude", "extensions", "index_sources", "types"]

def readSeverity (known : Severity) : Option Json → Except SettingsError Severity
  | none => .ok known
  | some (.string value) =>
    match value.toText?.bind Severity.ofText? with
    | some severity => .ok severity
    | none => .error (.unknownSeverity value)
  | some value => .error (.wrongKind "severity" "str" value.kindName)

def readStrings (key : String) (known : List WideString) :
    Option Json → Except SettingsError (List WideString)
  | none => .ok known
  | some (.array items) =>
    match items.mapM Json.asString? with
    | some names => .ok names
    | none => .error (.notStrings key)
  | some value => .error (.wrongKind key "list" value.kindName)

def readBool (key : String) (known : Bool) : Option Json → Except SettingsError Bool
  | none => .ok known
  | some (.bool value) => .ok value
  | some value => .error (.wrongKind key "bool" value.kindName)

def readObject (key : String) (known : List (WideString × Json)) :
    Option Json → Except SettingsError (List (WideString × Json))
  | none => .ok known
  | some (.object fields) => .ok fields
  | some value => .error (.wrongKind key "dict" value.kindName)

/-- The settings in an object; a key that is missing has its default. -/
def ofFields (fields : List (WideString × Json)) (path : Option String) :
    Except SettingsError Settings := do
  let known : Settings := { path }
  let severity ← readSeverity known.severity (fields.lookup ↑"severity")
  let suppress ← readStrings "suppress" known.suppress (fields.lookup ↑"suppress")
  let exclude ← readStrings "exclude" known.exclude (fields.lookup ↑"exclude")
  let extensions ← readStrings "extensions" known.extensions (fields.lookup ↑"extensions")
  let indexSources ← readBool "index_sources" known.indexSources (fields.lookup ↑"index_sources")
  let types ← readObject "types" known.types (fields.lookup ↑"types")
  return { severity, suppress, exclude, extensions, indexSources, types, path }

def unknownKeys (fields : List (WideString × Json)) : List WideString :=
  WideString.sorted ((fields.map (·.1)).filter (!knownKeys.contains ·))

/-- An empty path counts as none. -/
def givenPath (path : Option String) : Option String := path.filter (· != "")

def unknownKeysLog (fields : List (WideString × Json)) (path : Option String) : List LogEntry :=
  if (unknownKeys fields).isEmpty then []
  else
    let place := (givenPath path).getD "config"
    let keys := WideString.intercalate ", " (unknownKeys fields)
    [⟨.warning, .settings, s!"{place}: ignoring unknown key(s): " ++ keys⟩]

/-- The settings in an object, with a warning about keys that mean nothing. -/
def ofObject (fields : List (WideString × Json)) (path : Option String) :
    ExceptT SettingsError Logged Settings := do
  Logged.tell (unknownKeysLog fields path)
  ofFields fields path

def knownIds : List WideString := (Finding.all.map (·.id) ++ ["*"]).map .ofString

def unknownId (id : WideString) : WideString := "suppress: unknown error id '" ++ id ++ "'"

def undottedExtension (extension : WideString) : WideString :=
  "extensions: '" ++ extension ++ "' does not start with '.'"

def noExtensions : WideString := "extensions is empty; no file will be analysed"

/-- Settings that are allowed and yet do not mean anything. -/
def warnings (settings : Settings) : List WideString :=
  (settings.suppress.filter (!knownIds.contains ·)).map unknownId ++
  (settings.extensions.filter (·.points.head? != some (.char '.'))).map undottedExtension ++
  if settings.extensions.isEmpty then [noExtensions] else []

def load (steps : Nat) (fs : FileSystem) (path : String) :
    ExceptT SettingsError Logged Settings := do
  let fields ← (loadObject (steps + 1) fs path).mapError SettingsError.unloadable
  let settings ← ofObject fields (some path)
  Logged.tell (settings.warnings.map fun warning => ⟨.warning, .settings, s!"{path}: " ++ warning⟩)
  return settings

def fileName : String := ".override-jsdoc.json"

/-- The nearest settings file at or above a place. -/
def discover (fs : FileSystem) (start : String) : Option String :=
  let candidates := (fs.absolute start).ancestors.map fun directory =>
    Path.join directory.render fileName
  candidates.find? fs.isFile

end Settings
end OverrideLint
