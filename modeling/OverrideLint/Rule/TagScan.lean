import OverrideLint.DocComment.Basic
import OverrideLint.Rule.Context

/-! The override tag of a member. The first tag whose name looks like it is the
member's override tag, and a wrong spelling of it is reported; every later one is a
duplicate. -/
namespace OverrideLint

def overrideName : String := "override"

namespace OverrideTag

/-- Case folding of one letter; two letters besides the small ones fold to `i`, and
the long s folds to `s`. -/
def foldLetter (c : Char) : Char :=
  if c.toNat = 0x130 ∨ c.toNat = 0x131 then 'i'
  else if c.toNat = 0x17F then 's'
  else c.toLower

def spellings : List Text :=
  ["overide".toList, "override".toList, "overides".toList, "overrides".toList]

/-- A line feed at the very end of a name is overlooked. -/
def dropFinalBreak (name : Text) : Text :=
  if name.getLast? = some '\n' then name.dropLast else name

/-- Names meant to be `override`: one or two `r`, an `s` or none, in any case. -/
def isIntended (name : String) : Bool :=
  spellings.contains ((dropFinalBreak name.toList).map foldLetter)

def delete (tag : DocTag) : Edit := .delete tag.span

/-- Delimiters with nothing but blanks and stars between them. -/
def isBareComment : Text → Bool
  | '/' :: '*' :: '*' :: body =>
    ['*', '/'].isSuffixOf body &&
      (body.take (body.length - 2)).all fun c => Text.isBlank c || c == '*'
  | _ => false

/-- The text of a comment without one of its tags. -/
def remainder (text : Text) (comment : DocComment) (tag : DocTag) : Text :=
  Text.slice text comment.span.start tag.span.start ++
    Text.slice text tag.span.stop comment.span.stop

/-- The span of a comment, with one blank or tab after it. -/
def wholeSpan (text : Text) (comment : DocComment) : Span :=
  let next := text[comment.span.stop]?
  if next = some ' ' ∨ next = some '\t' then
    ⟨comment.span.start, comment.span.stop + 1, Nat.le_succ_of_le comment.span.start_le_stop⟩
  else comment.span

/-- The deletion of a duplicate. A comment that holds nothing else goes with it. -/
def deleteOccurrence (text : Text) (comment : DocComment) (tag : DocTag) : Edit :=
  if comment.tags.length = 1 ∧ isBareComment (remainder text comment tag) = true then
    .delete (wholeSpan text comment)
  else delete tag

def duplicate (ctx : RuleContext) (comment : DocComment) (tag : DocTag) : Diagnostic :=
  ctx.diagnostic .duplicate "@override jsdoc tag already specified" tag.nameSpan
    (some (deleteOccurrence ctx.text comment tag)) none

def misspelled (ctx : RuleContext) (tag : DocTag) : Diagnostic :=
  ctx.diagnostic .spelling
    s!"Syntax error: '{tag.name}' should be '{overrideName}' (case sensitive)" tag.span
    (some (.replace tag.nameSpan overrideName.toList)) none

end OverrideTag

/-- The override tag found so far, and the diagnostics so far. -/
structure TagScan where
  found : Option DocTag
  diagnostics : List Diagnostic

namespace TagScan

def step (ctx : RuleContext) (scan : TagScan) : DocComment × DocTag → TagScan
  | (comment, tag) =>
    if !OverrideTag.isIntended tag.name then scan
    else if scan.found.isSome then
      ⟨scan.found, scan.diagnostics ++ [OverrideTag.duplicate ctx comment tag]⟩
    else if tag.name = overrideName then ⟨some tag, scan.diagnostics⟩
    else ⟨some tag, scan.diagnostics ++ [OverrideTag.misspelled ctx tag]⟩

/-- The tags of several comments in document order. -/
def occurrences (docs : List DocComment) : List (DocComment × DocTag) :=
  docs.flatMap fun comment => comment.tags.map (comment, ·)

def ofDocs (ctx : RuleContext) (docs : List DocComment) : TagScan :=
  (occurrences docs).foldl (step ctx) ⟨none, []⟩

end TagScan
end OverrideLint
