import OverrideLint.Heritage
import OverrideLint.Rule.Decision

/-! The rule on one file: every member in the order of the walk, first what its tags
show, then at most one outcome. -/
namespace OverrideLint

namespace Rule

def name : String := ruleName
def version : String := "0.3.0"
def description : String := "Uses the @override JSDoc tag to prevent override mistakes"
def details : String :=
  "Prevents accidental overriding of a base class's method, " ++
    "as well as missing base methods for intended overrides."
def rationale : String := "Catches a class of errors that the type checker can not catch."
def title : String := s!"<OverrideTagRule '{name}'>"

variable {m : Type → Type} [Monad m]

/-- The base type that a member overrides; only overrideable members are looked up. -/
def baseOf (resolve : TypeReference → m Resolution) (parent : Node) (category : Category)
    (member : Member) : m (Option ResolvedType) :=
  match category.needsHeritage, member.name, parent.class? with
  | true, some memberName, some info => findBase resolve memberName.text info.references
  | _, _, _ => pure none

def checkMember (resolve : TypeReference → m Resolution) (ctx : RuleContext) (visit : Visit)
    (member : Member) : m (List Diagnostic) := do
  let category := Category.ofMember visit.parent visit.node.kind member
  let scan := TagScan.ofDocs ctx member.docs
  let base ← baseOf resolve visit.parent category member
  let outcome := Outcome.decide category scan.found.isSome base.isSome
  return scan.diagnostics ++
    (outcome.diagnostic? ctx visit.node.span member.name scan.found (base.map (·.name))).toList

def checkMembers (resolve : TypeReference → m Resolution) (ctx : RuleContext) :
    List (Visit × Member) → m (List Diagnostic)
  | [] => pure []
  | (visit, member) :: rest => do
    let first ← checkMember resolve ctx visit member
    let others ← checkMembers resolve ctx rest
    return first ++ others

/-- The diagnostics of one file, in the order in which they are reported. -/
def check (resolve : TypeReference → m Resolution) (severity : Severity) (source : SourceFile) :
    m (List Diagnostic) :=
  checkMembers resolve ⟨source.file, source.text, severity⟩ source.root.memberVisits

def summaryEntry (source : SourceFile) (diagnostics : List Diagnostic) : LogEntry :=
  let members := source.root.memberVisits.length
  ⟨.debug, .rule,
    s!"{source.file}: {members} member(s) checked, {diagnostics.length} finding(s)"⟩

end Rule
end OverrideLint
