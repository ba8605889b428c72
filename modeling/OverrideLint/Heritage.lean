import OverrideLint.Tree.Node

/-! Looking up a member in the base types of its class. How a reference resolves is
left to the caller. -/
namespace OverrideLint

/-- A base type with all its members, its own and the inherited ones. -/
structure ResolvedType where
  name : WideString
  members : List WideString
deriving DecidableEq, Repr

def ResolvedType.declares (type : ResolvedType) (member : WideString) : Bool :=
  type.members.contains member

/-- The answer to a reference: a type, nothing known, or a refusal to resolve it. -/
inductive Resolution
  | found (type : ResolvedType)
  | unknown
  | refused (typeName : String)
deriving DecidableEq, Repr

namespace Resolution

def type? : Resolution → Option ResolvedType
  | found type => some type
  | _ => none

def ofOption : Option ResolvedType → Resolution
  | some type => found type
  | none => unknown

/-- What the log says about the answer to a reference. -/
def log (reference : TypeReference) : Resolution → List LogEntry
  | found _ => []
  | unknown =>
    [⟨.debug, .heritage, s!"heritage reference '{reference.name}' unresolvable"⟩]
  | refused typeName =>
    let problem := Problem.unresolvable typeName
    [⟨.debug, .heritage,
      s!"heritage reference '{reference.name}' unresolvable: " ++ problem.describe⟩]

end Resolution

/-- The first base type that declares a member. References are resolved in order and
no further than needed; one without a type contributes nothing. -/
def findBase {m : Type → Type} [Monad m] (resolve : TypeReference → m Resolution)
    (member : String) : List TypeReference → m (Option ResolvedType)
  | [] => pure none
  | reference :: rest => do
    match (← resolve reference).type? with
    | some type => if type.declares member then pure (some type) else findBase resolve member rest
    | none => findBase resolve member rest

end OverrideLint
