import OverrideLint.Text.CodePoint

/-! Problems that are reported to the user, each under a numbered code. -/
namespace OverrideLint

inductive ErrorCode
  | configNotFound
  | configInvalidJson
  | configInvalidValue
  | sourceNotFound
  | sourceUnreadable
  | sourceUnsupported
  | docCommentSyntax
  | typeUnresolvable
deriving DecidableEq, Repr

namespace ErrorCode

/-- Below 1000 configuration, then source input, comments and type resolution. -/
def number : ErrorCode → Nat
  | configNotFound => 1
  | configInvalidJson => 2
  | configInvalidValue => 3
  | sourceNotFound => 1000
  | sourceUnreadable => 1001
  | sourceUnsupported => 1002
  | docCommentSyntax => 2000
  | typeUnresolvable => 3000

def name (code : ErrorCode) : String :=
  let digits := toString code.number
  "OJT-" ++ String.ofList (List.replicate (4 - digits.length) '0') ++ digits

end ErrorCode

structure Problem where
  code : ErrorCode
  message : WideString
  hint : Option String := none
deriving DecidableEq, Repr

namespace Problem

/-- An empty hint is no hint. -/
def visibleHint (problem : Problem) : Option String :=
  problem.hint.filter (· != "")

def describe (problem : Problem) : WideString :=
  let text := s!"[{problem.code.name}] " ++ problem.message
  match problem.visibleHint with
  | some hint => text ++ s!" (hint: {hint})"
  | none => text

def config (message : WideString) : Problem := ⟨.configInvalidValue, message, none⟩
def source (message : String) : Problem := ⟨.sourceUnreadable, message, none⟩
def docComment (message : String) : Problem := ⟨.docCommentSyntax, message, none⟩
def unresolvable (typeName : String) : Problem :=
  ⟨.typeUnresolvable, s!"cannot resolve type '{typeName}'", none⟩

end Problem
end OverrideLint
