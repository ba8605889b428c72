import OverrideLint.Diagnostic

/-! What the check of one file needs besides its tree. -/
namespace OverrideLint

structure RuleContext where
  file : String
  text : Text
  severity : Severity

namespace RuleContext

/-- The place of an offset of the file. -/
def location (ctx : RuleContext) (offset : Nat) : Location :=
  .ofPosition ctx.file (Text.positionOf ctx.text offset)

/-- A diagnostic anchored at a span. -/
def diagnostic (ctx : RuleContext) (finding : Finding) (message : String) (anchor : Span)
    (fix : Option Edit) (base : Option WideString) : Diagnostic where
  finding := finding
  message := message
  severity := ctx.severity
  span := anchor
  location := ctx.location anchor.start
  fix := fix
  base := base

end RuleContext
end OverrideLint
