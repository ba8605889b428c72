import OverrideLint.Diagnostic
import OverrideLint.Log
import OverrideLint.Text.Blank
import OverrideLint.Text.Wildcard
import OverrideLint.Text.Word

/-! Suppressions silence diagnostics: everywhere, in the files that a pattern
matches, or on one line by a directive in a comment. -/
namespace OverrideLint

/-- The identifier that stands for every finding. -/
def anyId : String := "*"

inductive Suppression
  | everywhere (id : String)
  | inFiles (id : String) (pattern : String)
  | onLine (file : String) (line : Nat) (ids : List String)
deriving DecidableEq, Repr

namespace Suppression

/-- A pattern names a file in full, by its end, or with wildcards as `glob` reads them. -/
def matchesFile (glob : String → String → Bool) (pattern file : String) : Bool :=
  pattern == file || pattern.toList.isSuffixOf file.toList || glob pattern file

end Suppression

/-- What is suppressed so far: the identifiers that count everywhere, those of each file
pattern, and those of each line of a file. -/
structure SuppressionTable where
  everywhere : List String := []
  inFiles : List (String × List String) := []
  onLines : List ((String × Int) × List String) := []

namespace SuppressionTable

/-- Adds identifiers to a set of them. -/
def unite (known added : List String) : List String :=
  added.foldr List.insert known

/-- Adds identifiers under a key, to those that the key has. -/
def addIds {κ : Type} [BEq κ] (key : κ) (ids : List String) :
    List (κ × List String) → List (κ × List String)
  | [] => [(key, unite [] ids)]
  | (known, old) :: rest =>
    if known == key then (known, unite old ids) :: rest else (known, old) :: addIds key ids rest

def record (table : SuppressionTable) : Suppression → SuppressionTable
  | .everywhere id => { table with everywhere := unite table.everywhere [id] }
  | .inFiles id pattern => { table with inFiles := addIds pattern [id] table.inFiles }
  | .onLine file line ids => { table with onLines := addIds (file, (line : Int)) ids table.onLines }

def recordAll (table : SuppressionTable) (suppressions : List Suppression) : SuppressionTable :=
  suppressions.foldl record table

/-- Whether identifiers name a finding, or stand for every one. -/
def names (ids : List String) (id : String) : Bool :=
  ids.contains id || ids.contains anyId

/-- Whether a finding at a line of a file is suppressed. -/
def silences (glob : String → String → Bool) (table : SuppressionTable) (id file : String)
    (line : Int) : Bool :=
  names table.everywhere id || names ((table.onLines.lookup (file, line)).getD []) id ||
    table.inFiles.any fun (pattern, ids) =>
      names ids id && Suppression.matchesFile glob pattern file

/-- The diagnostics that are not suppressed. -/
def keep (glob : String → String → Bool) (table : SuppressionTable)
    (diagnostics : List Diagnostic) : List Diagnostic :=
  diagnostics.filter fun diagnostic =>
    !table.silences glob diagnostic.finding.id diagnostic.location.file diagnostic.location.line

end SuppressionTable

/-- The diagnostics that are left after some suppressions. -/
def Suppression.keep (suppressions : List Suppression) (diagnostics : List Diagnostic) :
    List Diagnostic :=
  (SuppressionTable.recordAll {} suppressions).keep Wildcard.matchesPattern diagnostics

/-- A suppression directive: whether it is about the next line, and its identifiers. -/
structure Directive where
  nextLine : Bool
  ids : List String
deriving DecidableEq, Repr

namespace Directive

/-- Identifiers are separated by blanks and commas; none at all means every one. -/
def readIds (text : Text) : List String :=
  let ids := (Text.words (fun c => Text.isBlank c || c == ',') text).map String.ofList
  if ids.isEmpty then [anyId] else ids

/-- What follows a keyword in a text that starts with it; the keyword must end there. -/
def afterKeyword? (keyword : String) (text : Text) : Option Text :=
  if keyword.toList.isPrefixOf text then
    let rest := text.drop keyword.length
    if rest.head?.any Text.continuesKeyword then none else some rest
  else none

def isLineBreak (c : Char) : Bool := c == '\r' || c == '\n'

/-- Whether the keyword at the start of a text is about the next line, and what
follows it. -/
def keyword? (text : Text) : Option (Bool × Text) :=
  ((afterKeyword? "override-jsdoc-disable-next-line" text).map (true, ·)).or
    ((afterKeyword? "override-jsdoc-disable-line" text).map (false, ·))

/-- A directive at the start of a text, and the text after it. The rest of the line
lists its identifiers. -/
def read? : Text → Option (Directive × Text)
  | '/' :: '/' :: rest =>
    (keyword? (rest.dropWhile Text.isBlank)).map fun found =>
      (⟨found.1, readIds (found.2.takeWhile (!isLineBreak ·))⟩,
        found.2.dropWhile (!isLineBreak ·))
  | _ => none

private theorem length_afterKeyword?_le {keyword : String} {text after : Text}
    (h : afterKeyword? keyword text = some after) : after.length ≤ text.length := by
  simp only [afterKeyword?] at h
  split at h
  · split at h
    · cases h
    · cases h
      simp
  · cases h

private theorem length_keyword?_le {text after : Text} {nextLine : Bool}
    (h : keyword? text = some (nextLine, after)) : after.length ≤ text.length := by
  rcases Option.or_eq_some_iff.1 h with h | ⟨_, h⟩ <;>
    obtain ⟨found, hfound, heq⟩ := Option.map_eq_some_iff.1 h <;> cases heq <;>
    exact length_afterKeyword?_le hfound

private theorem length_of_read? {text after : Text} {directive : Directive}
    (h : read? text = some (directive, after)) : after.length < text.length := by
  unfold read? at h
  split at h
  · next rest =>
    obtain ⟨found, hfound, heq⟩ := Option.map_eq_some_iff.1 h
    cases heq
    have := (List.dropWhile_sublist (l := rest) Text.isBlank).length_le
    have := length_keyword?_le hfound
    have := (List.dropWhile_sublist (l := found.2) (!isLineBreak ·)).length_le
    simp only [List.length_cons]
    omega
  · cases h

/-- The directives of a text with the offsets at which they start. -/
def scan (text : Text) (offset : Nat) : List (Nat × Directive) :=
  match text with
  | [] => []
  | c :: rest =>
    match _h : read? (c :: rest) with
    | some (directive, after) =>
      (offset, directive) :: scan after (offset + ((c :: rest).length - after.length))
    | none => scan rest (offset + 1)
termination_by text.length
decreasing_by
  · exact length_of_read? _h
  · exact Nat.lt_succ_self _

/-- The suppression that a directive at an offset of a file stands for. -/
def suppression (file : String) (text : Text) (found : Nat × Directive) : Suppression :=
  let line := (Text.positionOf text found.1).line
  .onLine file (if found.2.nextLine then line + 1 else line) found.2.ids

end Directive

namespace Suppression

/-- The suppressions that the comments of a file ask for. -/
def inline (file : String) (text : Text) : List Suppression :=
  (Directive.scan text 0).map (Directive.suppression file text)

/-- The log of reading them. -/
def inlineLog (file : String) (found : List Suppression) : List LogEntry :=
  if found.isEmpty then []
  else [⟨.debug, .suppressions, s!"{file}: {found.length} inline suppression(s)"⟩]

end Suppression
end OverrideLint
