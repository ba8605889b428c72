import OverrideLint.DocComment.Grammar
import OverrideLint.Log
import OverrideLint.Problem
import OverrideLint.Text.Position

/-! Documentation comments with their tags. A tag spans its at-sign, its name and
its text without trailing blanks. A comment that does not parse has no tags. -/
namespace OverrideLint

structure DocTag where
  name : String
  nameSpan : Span
  span : Span
deriving DecidableEq

structure DocComment where
  span : Span
  tags : List DocTag
deriving DecidableEq

/-- The tag whose at-sign stands at `offset`. -/
def DocTag.ofSegment (offset : Nat) (name text : Text) : DocTag where
  name := String.ofList name
  nameSpan := ⟨offset + 1, offset + 1 + name.length, by omega⟩
  span := ⟨offset, offset + 1 + name.length + (Text.trimRight text).length, by omega⟩

def DocTag.shift (tag : DocTag) (offset : Nat) : DocTag where
  name := tag.name
  nameSpan := tag.nameSpan.shift offset
  span := tag.span.shift offset

namespace DocComment

def segmentTags (offset : Nat) : List Segment → List DocTag
  | [] => []
  | .tag name text :: rest =>
    DocTag.ofSegment offset name text ::
      segmentTags (offset + (Segment.tag name text).render.length) rest
  | segment :: rest => segmentTags (offset + segment.render.length) rest

def lineTags (offset : Nat) : List Line → List DocTag
  | [] => []
  | line :: rest =>
    segmentTags (offset + (line.indent ++ line.leader).length) line.segments ++
      lineTags (offset + line.render.length) rest

/-- The tags of a complete comment, with offsets from the start of its text. -/
def parseTags (text : Text) : Except SyntaxError (List DocTag) :=
  (parse text).map (lineTags 3)

namespace SyntaxError

def offset : SyntaxError → Nat
  | notOpened => 0
  | unclosed offset => offset
  | trailing offset => offset

/-- The text that follows the offset of an error, and where that is. -/
def place (text : Text) (offset : Nat) : String :=
  let position := Text.positionOf text offset
  let excerpt := String.ofList (Text.slice text offset (offset + 20))
  s!"'{excerpt}' (line {position.line}, column {position.column})."

def message (text : Text) (error : SyntaxError) : String :=
  let place := place text error.offset
  "malformed documentation comment: " ++ match error with
    | notOpened => s!"Rule 'comment' didn't match at {place}"
    | unclosed _ => s!"Rule 'close' didn't match at {place}"
    | trailing _ => "Rule 'comment' matched in its entirety, but it didn't consume all the text. " ++
        "The non-matching portion of the text begins with " ++ place

def problem (text : Text) (error : SyntaxError) : Problem :=
  .docComment (error.message text)

end SyntaxError

/-- A block comment that opens with two stars, other than the four characters of an
empty block comment. -/
def isDocComment (text : Text) : Bool :=
  ['/', '*', '*'].isPrefixOf text && text != ['/', '*', '*', '/'] && ['*', '/'].isSuffixOf text

def ignoredTags (start : Nat) (problem : Problem) : LogEntry :=
  ⟨.warning, .comments, s!"ignoring tags of comment at offset {start}: " ++ problem.describe⟩

/-- The comment found at an offset of the source text. -/
def ofText (text : Text) (start : Nat) : Logged DocComment :=
  let span : Span := ⟨start, start + text.length, Nat.le_add_right ..⟩
  match parseTags text with
  | .ok tags => ⟨⟨span, tags.map (·.shift start)⟩, []⟩
  | .error error => ⟨⟨span, []⟩, [ignoredTags start (error.problem text)]⟩

/-- As `ofText`, for an offset that may lie before the text. -/
def ofSignedText (text : Text) (start : Int) : Except Span.Invalid (Logged DocComment) :=
  (Span.ofBounds start (start + text.length)).map fun span => ofText text span.start

end DocComment
end OverrideLint
