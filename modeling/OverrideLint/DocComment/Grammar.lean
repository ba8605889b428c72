import OverrideLint.Span
import OverrideLint.Text.Blank
import OverrideLint.Text.Word

/-! The shape of a documentation comment: lines with an optional star leader, and
on each line tags, running text and stray at-signs. Reading a comment keeps every
character. -/
namespace OverrideLint.DocComment

inductive Segment
  | tag (name text : Text)
  | plain (text : Text)
  | stray
deriving DecidableEq, Repr

/-- One line with the line break that ends it; the last line ends with none. -/
structure Line where
  indent : Text
  leader : Text
  segments : List Segment
  ending : Text
deriving DecidableEq, Repr

def Segment.render : Segment → Text
  | tag name text => '@' :: name ++ text
  | plain text => text
  | stray => ['@']

def Line.render (line : Line) : Text :=
  line.indent ++ line.leader ++ line.segments.flatMap Segment.render ++ line.ending

def isIndent (c : Char) : Bool := c == ' ' || c == '\t'

def isNameStart (c : Char) : Bool := c.isAlpha || c == '_' || c == '$'

def isNameChar (c : Char) : Bool :=
  Text.isWord c || c == '$' || c == '.' || c == '-'

/-- Running text stops at a line break, at the closing delimiter, and at an
at-sign that follows white space. -/
def splitRun (afterSpace : Bool) : Text → Text × Text
  | [] => ([], [])
  | c :: rest =>
    if c = '\r' ∨ c = '\n' ∨ (c = '@' ∧ afterSpace = true) ∨ (c = '*' ∧ rest.head? = some '/') then
      ([], c :: rest)
    else
      let more := splitRun (Text.isSpace c) rest
      (c :: more.1, more.2)

/-- A tag is an at-sign and a name; its text runs on from the name. -/
def readTag : Text → Option (Text × Text × Text)
  | '@' :: c :: rest =>
    if isNameStart c then
      let run := splitRun false (rest.dropWhile isNameChar)
      some (c :: rest.takeWhile isNameChar, run.1, run.2)
    else none
  | _ => none

theorem splitRun_append (afterSpace : Bool) (text : Text) :
    (splitRun afterSpace text).1 ++ (splitRun afterSpace text).2 = text := by
  fun_induction splitRun afterSpace text with
  | case1 => rfl
  | case2 => rfl
  | case3 afterSpace c rest hc more ih => simpa [more] using ih

theorem readTag_append {text name run after : Text} (h : readTag text = some (name, run, after)) :
    '@' :: name ++ run ++ after = text := by
  unfold readTag at h
  split at h
  · rename_i c rest
    split at h
    · simp only [Option.some.injEq, Prod.mk.injEq] at h
      obtain ⟨rfl, rfl, rfl⟩ := h
      simp [splitRun_append]
    · simp at h
  · simp at h

/-- The segments up to the end of the line or of the comment. A tag is tried first,
then running text; an at-sign that starts neither is stray. -/
def readSegments (afterSpace : Bool) (text : Text) : List Segment × Text :=
  match _htag : readTag text with
  | some (name, run, after) =>
    let more := readSegments true after
    (.tag name run :: more.1, more.2)
  | none =>
    match _hrun : splitRun afterSpace text with
    | (c :: run, after) =>
      let more := readSegments true after
      (.plain (c :: run) :: more.1, more.2)
    | ([], '@' :: after) =>
      let more := readSegments false after
      (.stray :: more.1, more.2)
    | ([], after) => ([], after)
termination_by text.length
decreasing_by
  · have := congrArg List.length (readTag_append _htag)
    simp at this; omega
  · have := congrArg List.length (splitRun_append afterSpace text)
    simp [_hrun] at this; omega
  · have := congrArg List.length (splitRun_append afterSpace text)
    simp [_hrun] at this; omega

theorem readSegments_append (afterSpace : Bool) (text : Text) :
    (readSegments afterSpace text).1.flatMap Segment.render ++ (readSegments afterSpace text).2 =
      text := by
  fun_induction readSegments afterSpace text with
  | case1 afterSpace text name run after htag more ih =>
    have := readTag_append htag
    simp_all [Segment.render, more]
  | case2 afterSpace text htag c run after hrun more ih =>
    have := splitRun_append afterSpace text
    simp_all [Segment.render, more]
  | case3 afterSpace text htag after hrun more ih =>
    have := splitRun_append afterSpace text
    simp_all [Segment.render, more]
  | case4 afterSpace text htag after hne hrun =>
    have := splitRun_append afterSpace text
    simp_all

/-- A star that does not close the comment, with the blanks and tabs after it. -/
def readLeader : Text → Text × Text
  | '*' :: rest =>
    if rest.head? = some '/' then ([], '*' :: rest)
    else ('*' :: rest.takeWhile isIndent, rest.dropWhile isIndent)
  | text => ([], text)

theorem readLeader_append (text : Text) : (readLeader text).1 ++ (readLeader text).2 = text := by
  fun_cases readLeader text <;> simp_all

/-- Whether the character before the segments of a line is white space. -/
def spaceBefore (afterSpace : Bool) (indent leader : Text) : Bool :=
  match (indent ++ leader).getLast? with
  | some c => Text.isSpace c
  | none => afterSpace

def readLineBreak : Text → Text × Text
  | '\n' :: rest => (['\n'], rest)
  | '\r' :: '\n' :: rest => (['\r', '\n'], rest)
  | text => ([], text)

theorem readLineBreak_append (text : Text) :
    (readLineBreak text).1 ++ (readLineBreak text).2 = text := by
  fun_cases readLineBreak text <;> simp_all

def readLine (afterSpace : Bool) (text : Text) : Line × Text :=
  let indent := text.takeWhile isIndent
  let leader := readLeader (text.dropWhile isIndent)
  let body := readSegments (spaceBefore afterSpace indent leader.1) leader.2
  let ending := readLineBreak body.2
  (⟨indent, leader.1, body.1, ending.1⟩, ending.2)

theorem readLine_append (afterSpace : Bool) (text : Text) :
    (readLine afterSpace text).1.render ++ (readLine afterSpace text).2 = text := by
  simp only [readLine, Line.render, List.append_assoc, readLineBreak_append, readSegments_append,
    readLeader_append]
  exact List.takeWhile_append_dropWhile

/-- Lines as long as each ends with a line break, and the one that does not. -/
def readLines (afterSpace : Bool) (text : Text) : List Line × Text :=
  let first := readLine afterSpace text
  if _hend : first.1.ending = [] then ([first.1], first.2)
  else
    let more := readLines true first.2
    (first.1 :: more.1, more.2)
termination_by text.length
decreasing_by
  have := congrArg List.length (readLine_append afterSpace text)
  have hpos : 0 < (readLine afterSpace text).1.ending.length := List.length_pos_iff.2 _hend
  simp only [Line.render, List.length_append] at this; omega

theorem readLines_append (afterSpace : Bool) (text : Text) :
    (readLines afterSpace text).1.flatMap Line.render ++ (readLines afterSpace text).2 = text := by
  fun_induction readLines afterSpace text with
  | case1 afterSpace text first hend =>
    simpa using readLine_append afterSpace text
  | case2 afterSpace text first hend more ih =>
    simpa [more, ih] using readLine_append afterSpace text

/-- Why a text is no documentation comment. -/
inductive SyntaxError
  | notOpened
  | unclosed (offset : Nat)
  | trailing (offset : Nat)
deriving DecidableEq, Repr

def parse : Text → Except SyntaxError (List Line)
  | '/' :: '*' :: '*' :: body =>
    match readLines false body with
    | (lines, ['*', '/']) => .ok lines
    | (_, '*' :: '/' :: rest) => .error (.trailing (3 + (body.length - rest.length)))
    | (_, rest) => .error (.unclosed (3 + (body.length - rest.length)))
  | _ => .error .notOpened

end OverrideLint.DocComment
