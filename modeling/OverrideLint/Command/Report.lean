import OverrideLint.Diagnostic
import OverrideLint.Json.Writer

/-! How diagnostics are printed. The default format shows the source line and marks
the columns of the span below it. -/
namespace OverrideLint

namespace Edit

def fields (edit : Edit) : List (WideString × Json) :=
  [("kind", .string edit.kindName), ("start", .int edit.span.start), ("end", .int edit.span.stop),
    ("text", .string (String.ofList edit.text))]

end Edit

namespace Diagnostic

def fields (d : Diagnostic) : List (WideString × Json) :=
  let always : List (WideString × Json) :=
    [("file", .string d.location.file), ("linenr", .int d.location.line),
      ("column", .int d.location.column), ("severity", .string d.severity.name),
      ("message", .string d.message), ("errorId", .string d.finding.id),
      ("rule", .string ruleName), ("start", .int d.span.start), ("end", .int d.span.stop)]
  match d.fix with
  | some edit => always.concat ("fix", .object edit.fields)
  | none => always

end Diagnostic

inductive Format
  | gcc
  | json
  | summary
  | plain
deriving DecidableEq, Repr

/-- An unknown format prints one line for each diagnostic and nothing else. -/
def Format.ofName : String → Format
  | "gcc" => gcc
  | "json" => json
  | "summary" => summary
  | _ => plain

/-- Whether the output is coloured. -/
structure Palette where
  enabled : Bool

namespace Palette

def code (palette : Palette) (number : Nat) : String :=
  if palette.enabled then s!"\x1b[{number}m" else ""

def reset (palette : Palette) : String := palette.code 0
def bold (palette : Palette) : String := palette.code 1
def green (palette : Palette) : String := palette.code 32

def severity (palette : Palette) : Severity → String
  | .error => palette.code 31
  | .warning => palette.code 35
  | .style => palette.code 36
  | .information => palette.code 36

end Palette

/-- Why a run of characters cannot be printed: its length is too large to be counted, or
to be held in memory. -/
inductive WidthError
  | uncountable
  | unholdable
deriving DecidableEq, Repr

namespace WidthError

def message : WidthError → String
  | uncountable => "cannot fit 'int' into an index-sized integer"
  | unholdable => ""

/-- Whether a run of this length can be printed. A negative length stands for no run at
all, as long as it can be counted. -/
def ofLength? (length : Int) : Option WidthError :=
  if length < -0x8000000000000000 ∨ 0x8000000000000000 ≤ length then some uncountable
  else if 0x100000000 ≤ length then some unholdable
  else none

end WidthError

/-- A report as far as it could be printed, and why not further. -/
structure Printed where
  output : String
  fault : Option WidthError

namespace Report

/-- How many columns of a line are marked: those of the span that lie on the line,
and at least one. -/
def markWidth (line : Text) (d : Diagnostic) : Nat :=
  max 1 (min d.span.width (line.length + 1 - d.location.column).toNat)

def marks (line : Text) (d : Diagnostic) : String :=
  "^" ++ String.ofList (List.replicate (markWidth line d - 1) '~')

def indent (d : Diagnostic) : String :=
  String.ofList (List.replicate (d.location.column - 1).toNat ' ')

/-- Why the line below an excerpt cannot be printed. -/
def excerptFault? (d : Diagnostic) (text : Text) : Option WidthError :=
  let line := Text.lineText text d.location.line.toNat
  (WidthError.ofLength? (d.location.column - 1)).or
    (WidthError.ofLength? (markWidth line d - 1 : Nat))

def heading (palette : Palette) (d : Diagnostic) : String :=
  palette.bold ++ d.location.describe ++ ": " ++ palette.severity d.severity ++ d.severity.name ++
    ":" ++ palette.reset ++ palette.bold ++ " " ++ d.message ++ palette.reset ++
    s!" [{d.finding.id}]\n"

def excerpt (palette : Palette) (d : Diagnostic) (text : Text) : String :=
  let line := Text.lineText text d.location.line.toNat
  "  " ++ String.ofList line ++ "\n  " ++ indent d ++ palette.green ++ marks line d ++
    palette.reset ++ "\n"

def gcc (palette : Palette) (d : Diagnostic) (text : Option Text) : String :=
  heading palette d ++ (text.map (excerpt palette d)).getD ""

def line (format : Format) (palette : Palette) (texts : List (String × Text))
    (d : Diagnostic) : String :=
  match format with
  | .json => (Json.object d.fields).render ++ "\n"
  | .gcc => gcc palette d (texts.lookup d.location.file)
  | _ => d.describe ++ "\n"

/-- Only an excerpt can be too wide. -/
def fault? (format : Format) (texts : List (String × Text)) (d : Diagnostic) :
    Option WidthError :=
  match format with
  | .gcc => (texts.lookup d.location.file).bind (excerptFault? d)
  | _ => none

def errorCount (diagnostics : List Diagnostic) : Nat :=
  diagnostics.countP (·.severity = .error)

def fileCount (diagnostics : List Diagnostic) : Nat :=
  (diagnostics.map (·.location.file)).eraseDups.length

def trailer (diagnostics : List Diagnostic) : String :=
  s!"\n--- {diagnostics.length} diagnostic(s) in {fileCount diagnostics} file(s), " ++
    s!"{errorCount diagnostics} error(s) ---\n"

/-- The whole report, up to a diagnostic that cannot be printed. `texts` has the text of
each file, by its name. -/
def print (format : Format) (palette : Palette) (texts : List (String × Text))
    (diagnostics : List Diagnostic) : Printed where
  output :=
    let printable := diagnostics.takeWhile fun d => (fault? format texts d).isNone
    String.join (printable.map (line format palette texts)) ++
      if format = .summary then trailer diagnostics else ""
  fault := diagnostics.findSome? (fault? format texts)

end Report
end OverrideLint
