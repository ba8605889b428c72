import OverrideLint.Rule.TagScan
import OverrideLint.Tree.Category

/-! Whether a member is reported, from its category, its tag and its base, and how
each outcome reads. -/
namespace OverrideLint

inductive Outcome
  | none
  | noBase
  | missingTag
  | extraneousStatic
  | extraneousConstructor
  | extraneous
deriving DecidableEq, Repr

namespace Outcome

def name : Outcome → String
  | none => "none"
  | noBase => "no-base"
  | missingTag => "missing-tag"
  | extraneousStatic => "extraneous-static"
  | extraneousConstructor => "extraneous-constructor"
  | extraneous => "extraneous"

def decide (category : Category) (tagFound baseFound : Bool) : Outcome :=
  match category, tagFound, baseFound with
  | .overrideable, true, false => noBase
  | .overrideable, false, true => missingTag
  | .static, true, false => extraneousStatic
  | .constructor, true, false => extraneousConstructor
  | .nonOverrideable, true, false => extraneous
  | _, _, _ => none

/-- How an outcome is reported: the finding, its message, whether it is anchored on
the member's name, and whether its repair inserts a tag. -/
structure Report where
  finding : Finding
  message : String
  onName : Bool
  insertsTag : Bool

def report? : Outcome → Option Report
  | none => .none
  | noBase => some
    { finding := .noBase
      message := "Member with @override keyword does not override any base class member"
      onName := true
      insertsTag := false }
  | missingTag => some
    { finding := .missing
      message := "Member is overriding a base member. " ++
        "Use the @override JSDoc tag if the override is intended"
      onName := true
      insertsTag := true }
  | extraneousStatic => some
    { finding := .extraneous
      message := "Extraneous override tag: static members cannot override"
      onName := false
      insertsTag := false }
  | extraneousConstructor => some
    { finding := .extraneous
      message := "Extraneous override tag: constructors always override the parent"
      onName := false
      insertsTag := false }
  | extraneous => some
    { finding := .extraneous
      message := "Extraneous override tag"
      onName := false
      insertsTag := false }

end Outcome

/-- The comment that an insertion puts before a member. -/
def overrideComment : Text := "/** @override */ ".toList

namespace Outcome

def anchor (report : Report) (span : Span) (name : Option MemberName) (tag : Option DocTag) :
    Span :=
  match report.onName, name, tag with
  | true, some name, _ => name.span
  | _, _, some tag => tag.span
  | _, _, .none => span

def fix? (report : Report) (span : Span) (tag : Option DocTag) : Option Edit :=
  if report.insertsTag then some (.insert span.start overrideComment)
  else tag.map OverrideTag.delete

/-- The diagnostic of an outcome for a member with its span, tag and base type. -/
def diagnostic? (outcome : Outcome) (ctx : RuleContext) (span : Span) (name : Option MemberName)
    (tag : Option DocTag) (base : Option WideString) : Option Diagnostic :=
  outcome.report?.map fun report =>
    ctx.diagnostic report.finding report.message (anchor report span name tag)
      (fix? report span tag) (base.filter (· != ""))

end Outcome
end OverrideLint
