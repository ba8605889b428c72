import OverrideLint.Span
import OverrideLint.Text.Quoted

/-! Edits of a text: an insertion, a deletion or a replacement. Spans refer to the
text before any edit. -/
namespace OverrideLint

inductive Edit
  | insert (offset : Nat) (text : Text)
  | delete (span : Span)
  | replace (span : Span) (text : Text)
deriving DecidableEq

namespace Edit

def span : Edit → Span
  | insert offset _ => Span.empty offset
  | delete span => span
  | replace span _ => span

/-- What is written in place of the span. -/
def text : Edit → Text
  | insert _ text => text
  | delete _ => []
  | replace _ text => text

def kindName : Edit → String
  | insert .. => "insert"
  | delete .. => "delete"
  | replace .. => "replace"

def isDeletion : Edit → Bool
  | delete _ => true
  | _ => false

def apply (edit : Edit) (source : Text) : Text :=
  source.take edit.span.start ++ edit.text ++ source.drop edit.span.stop

/-- An edit as the log shows it. -/
def describe (edit : Edit) : String :=
  let kind := s!"<EditKind.{edit.kindName.toUpper}: '{edit.kindName}'>"
  let text := String.ofList (Text.quoted edit.text)
  s!"TextEdit(kind={kind}, span=Span(start={edit.span.start}, end={edit.span.stop}), text={text})"

end Edit
end OverrideLint
