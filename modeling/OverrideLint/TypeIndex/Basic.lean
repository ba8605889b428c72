import OverrideLint.Tree.Walk
import OverrideLint.TypeIndex.Ancestry
import OverrideLint.TypeIndex.Outline

/-! The index answers references from a table of declarations. It remembers its
answers, and forgets them all when something is declared. -/
namespace OverrideLint

structure TypeIndex where
  table : DeclarationTable := []
  answers : List ((WideString × String) × Option ResolvedType) := []

namespace TypeIndex

def empty : TypeIndex := {}

def size (index : TypeIndex) : Nat := index.table.length

def declare (index : TypeIndex) (name : WideString) (origin : String)
    (members bases : List WideString) : TypeIndex where
  table := index.table.declare name origin members bases

/-- Whether a name stands for anything, wherever it is used. -/
def contains (index : TypeIndex) (name : WideString) : Logged Bool :=
  ⟨(index.table.lookup? name "").isSome, index.table.lookupLog name ""⟩

/-- The type that a name stands for in a file. A remembered answer is given again
without a log. -/
def resolveName (name : WideString) (origin : String) :
    StateT TypeIndex Logged (Option ResolvedType) :=
  fun index =>
    match index.answers.lookup (name, origin) with
    | some answer => pure (answer, index)
    | none => do
      let answer ← index.table.resolve name origin
      return (answer, ⟨index.table, ((name, origin), answer) :: index.answers⟩)

/-- Answers a heritage reference, and logs one that has no type. -/
def resolve (reference : TypeReference) : StateT TypeIndex Logged Resolution := do
  let answer := Resolution.ofOption (← resolveName reference.name reference.file)
  Logged.tell (answer.log reference)
  return answer

def declareOutline (index : TypeIndex) (origin : String) (outline : TypeOutline) : TypeIndex :=
  index.declare outline.name origin outline.members outline.bases

/-- Declares stubs in order up to the first one that is wrong. -/
def loadStubs (index : TypeIndex) (origin : String) :
    List (WideString × Json) → TypeIndex × Option StubError
  | [] => (index, none)
  | (name, body) :: rest =>
    match TypeOutline.ofStub name body with
    | .error error => (index, some error)
    | .ok outline => loadStubs (index.declareOutline origin outline) origin rest

end TypeIndex

namespace Node

/-- Private, computed and static names and constructors are not inherited. -/
def isInherited (member : Kind × Member) : Bool :=
  !member.2.isStatic && member.1 != .constructor

def inheritedName? (member : Kind × Member) : Option String :=
  if isInherited member then
    (member.2.name.bind MemberName.staticText).filter fun name => name.toList.head? != some '#'
  else none

/-- What a node declares: a class or an interface with a name. -/
def declares? (node : Node) : Option TypeOutline :=
  match node.role with
  | .classLike info =>
    (info.name.filter (· != "")).map fun name =>
      ⟨name, (node.members.filterMap inheritedName? ++ info.parameterProperties).map .ofString,
        info.extendsNames.map .ofString⟩
  | .interfaceLike info =>
    if info.name = "" then none
    else some ⟨info.name, info.memberNames.map .ofString, info.bases.map (.ofString ·.name)⟩
  | _ => none

end Node

namespace SourceFile

/-- The types that a file declares, in the order of the walk. -/
def declared (source : SourceFile) : List TypeOutline :=
  source.root.descendants.filterMap (·.node.declares?)

end SourceFile

namespace TypeIndex

def addDeclared (index : TypeIndex) (origin : String) (declared : List TypeOutline) : TypeIndex :=
  declared.foldl (declareOutline · origin ·) index

/-- Indexes every named class and interface of a file, and counts them. -/
def addSource (index : TypeIndex) (source : SourceFile) : Logged (Nat × TypeIndex) := do
  let count := source.declared.length
  Logged.tell [⟨.debug, .index, s!"{source.file}: indexed {count} declaration(s)"⟩]
  return (count, index.addDeclared source.file source.declared)

end TypeIndex
end OverrideLint
