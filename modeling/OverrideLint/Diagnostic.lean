import OverrideLint.Edit.Basic
import OverrideLint.Text.Blank
import OverrideLint.Text.CodePoint
import OverrideLint.Text.Lowercase
import OverrideLint.Text.Position

/-! Diagnostics: a finding with its severity, its place and the edit that repairs
it. -/
namespace OverrideLint

inductive Severity
  | error
  | warning
  | style
  | information
deriving DecidableEq, Repr

namespace Severity

def all : List Severity := [error, warning, style, information]

def name : Severity → String
  | error => "error"
  | warning => "warning"
  | style => "style"
  | information => "information"

/-- A severity by its name, in any case and between blanks. -/
def ofText? (text : Text) : Option Severity :=
  let word := String.ofList (Text.lower (Text.trim text))
  all.find? (·.name == word)

def unknownMessage (value : WideString) : WideString :=
  let names := ", ".intercalate (all.map name)
  "unknown severity '" ++ value ++ s!"' (expected one of: {names})"

end Severity

inductive Finding
  | spelling
  | duplicate
  | extraneous
  | noBase
  | missing
deriving DecidableEq, Repr

namespace Finding

def all : List Finding := [spelling, duplicate, extraneous, noBase, missing]

/-- The name under which a finding is reported and suppressed. -/
def id : Finding → String
  | spelling => "overrideTagSpelling"
  | duplicate => "overrideTagDuplicate"
  | extraneous => "overrideTagExtraneous"
  | noBase => "overrideTagNoBase"
  | missing => "overrideTagMissing"

end Finding

/-- A place that is reported. It need not lie in the file, so it is signed. -/
structure Location where
  file : String
  line : Int
  column : Int
deriving DecidableEq, Repr

namespace Location

def ofPosition (file : String) (position : Position) : Location :=
  ⟨file, position.line, position.column⟩

/-- Column zero stands for an unknown column and is not shown. -/
def describe (location : Location) : String :=
  let line := s!"{location.file}:{location.line}"
  if location.column = 0 then line else s!"{line}:{location.column}"

end Location

def ruleName : String := "override-jsdoc-tag"

structure Diagnostic where
  finding : Finding
  message : String
  severity : Severity
  span : Span
  location : Location
  fix : Option Edit := none
  base : Option WideString := none
deriving DecidableEq

/-- One line: place, severity, message and finding. -/
def Diagnostic.describe (d : Diagnostic) : String :=
  s!"{d.location.describe}: {d.severity.name}: {d.message} [{d.finding.id}]"

/-- The repairs of those diagnostics that carry one. -/
def fixesOf (diagnostics : List Diagnostic) : List Edit :=
  diagnostics.filterMap (·.fix)

end OverrideLint
