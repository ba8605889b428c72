import OverrideLint.Edit.Basic
import OverrideLint.Log

/-! Applying many edits at once. An edit inside a deletion is subsumed by it; the
others are applied from back to front, so that the offsets of those still to come
stay valid, and one that overlaps an applied edit is skipped. -/
namespace OverrideLint

namespace Edit

/-- Whether another deletion removes the target of an edit. An insertion at a
boundary of a deletion lies outside it. -/
def isSubsumed (edit : Edit) (edits : List Edit) : Bool :=
  edits.any fun other =>
    other.isDeletion && other != edit && other.span.contains edit.span &&
      !(edit.span.width == 0 &&
        (edit.span.start == other.span.start || edit.span.start == other.span.stop))

/-- Two insertions at one offset conflict as well: their order would be arbitrary. -/
def conflicts (a b : Edit) : Bool :=
  a.span.overlaps b.span || a.span == b.span

end Edit

inductive SkipReason
  | outside
  | overlapping
deriving DecidableEq, Repr

structure FixResult where
  text : Text
  applied : List Edit
  skipped : List (Edit × SkipReason)
  subsumed : List Edit

namespace FixResult

def changed (result : FixResult) : Bool := !result.applied.isEmpty

def skipEntry : Edit × SkipReason → LogEntry
  | (edit, .outside) =>
    ⟨.warning, .edits, s!"edit {edit.describe} lies outside the text; skipped"⟩
  | (edit, .overlapping) =>
    ⟨.debug, .edits, s!"edit {edit.describe} overlaps an applied edit; skipped"⟩

def log (result : FixResult) : List LogEntry := result.skipped.map skipEntry

/-- Applies one more edit, or records why not. `length` is that of the unedited text. -/
def step (length : Nat) (result : FixResult) (edit : Edit) : FixResult :=
  if length < edit.span.stop then
    { result with skipped := result.skipped ++ [(edit, .outside)] }
  else if result.applied.any (edit.conflicts ·) then
    { result with skipped := result.skipped ++ [(edit, .overlapping)] }
  else
    { result with text := edit.apply result.text, applied := result.applied ++ [edit] }

end FixResult

/-- Later spans first; edits of one span keep their order. -/
def backToFront (edits : List Edit) : List Edit :=
  edits.mergeSort fun a b => b.span.le a.span

def applyEdits (text : Text) (edits : List Edit) : FixResult :=
  let pending := edits.eraseDups
  let kept := pending.filter fun edit => !edit.isSubsumed pending
  let subsumed := pending.filter fun edit => edit.isSubsumed pending
  (backToFront kept).foldl (FixResult.step text.length) ⟨text, [], [], subsumed⟩

end OverrideLint
