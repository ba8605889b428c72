import OverrideLint.ParseTree.Parts

/-! From a concrete tree to the tree that the rule is checked on. Classes,
interfaces, members and references get a role; every other named node stays plain,
so that a class is reached wherever it is nested. Documentation comments in front of
a member, with other comments and decorators among them, are attached to it. A node is
read before its children and the children in order; the first range that does not fit
the text ends the conversion. -/
namespace OverrideLint

/-- A result with the entries made on the way, which are kept when it is a failure. -/
abbrev Converted := ExceptT RangeError Logged

/-- What the children of a class come to. -/
structure ClassParts where
  heritage : Option (List HeritageClause) := none
  properties : Option (List String) := none
  nodes : List Node := []

/-- Of two heritage parts or bodies the later one counts; the nodes of both are kept. -/
def ClassParts.append (first second : ClassParts) : ClassParts where
  heritage := second.heritage.or first.heritage
  properties := second.properties.or first.properties
  nodes := first.nodes ++ second.nodes

/-- A heritage clause with the nodes of its references. -/
structure ClauseNodes where
  token : HeritageToken
  nodes : List Node

def ClauseNodes.clause (clause : ClauseNodes) : HeritageClause :=
  ⟨clause.token, clause.nodes.filterMap Node.reference?⟩

/-- The names that an interface body declares, with the nodes below it. -/
structure BodyParts where
  names : List String := []
  nodes : List Node := []

namespace ParseTree

/-- The documentation comment that a comment node holds, if it is one. -/
def docComments (source : SourceText) (tree : ParseTree) : Converted (List DocComment) := do
  let span ← source.span tree
  let text := Text.slice source.text span.start span.stop
  if DocComment.isDocComment text then return [← DocComment.ofText text span.start]
  else return []

/-- The start of a decorator, unless one before it is known. -/
def decoratorStart (source : SourceText) (known : Option Nat) (tree : ParseTree) :
    Converted Nat :=
  match known with
  | some start => return start
  | none => do return (← source.span tree).start

mutual

def convert (source : SourceText) : ParseTree → Converted Node
  | .node type named range field children => do
    let tree := ParseTree.node type named range field children
    let span ← source.span tree
    if let some kind := classKind? type then
      let name ← className? source tree
      let parts ← classParts source children
      let info : ClassInfo := ⟨name, parts.heritage, parts.properties.getD []⟩
      return .mk kind span (.classLike info) parts.nodes
    else if type = "interface_declaration" then
      let name ← source.sliceOf? (tree.child? "name")
      let bases ← interfaceBases source children
      let body ← interfaceBody source children
      let info : InterfaceInfo :=
        ⟨String.ofList name, bases.filterMap Node.reference?, body.names⟩
      return .mk .interfaceDeclaration span (.interfaceLike info) (bases ++ body.nodes)
    else
      let children ← convertAll source .other [] none children
      return .mk .other span .plain children

/-- Converts the children of a node. Comments and the start of the first decorator
are kept for the next node with a name; tokens do not come between. -/
def convertAll (source : SourceText) (container : Container) (docs : List DocComment)
    (decorator : Option Nat) : List ParseTree → Converted (List Node)
  | [] => return []
  | child :: rest => do
    if child.type = "comment" then
      let found ← docComments source child
      convertAll source container (docs ++ found) decorator rest
    else if child.type = "decorator" then
      let start ← decoratorStart source decorator child
      let first ← convert source child
      let others ← convertAll source container docs (some start) rest
      return first :: others
    else if !child.named then convertAll source container docs decorator rest
    else if container.hasMember child.type then
      let first ← convertMember source docs decorator child
      let others ← convertAll source container [] none rest
      return first :: others
    else
      let first ← convert source child
      let others ← convertAll source container [] none rest
      return first :: others

def convertMember (source : SourceText) (docs : List DocComment) (decorator : Option Nat) :
    ParseTree → Converted Node
  | .node type named range field children => do
    let tree := ParseTree.node type named range field children
    let span ← source.span tree
    let name ← memberName? source tree
    let modifiers ← modifiers source tree
    let children ← memberChildren source name children
    return .mk (memberKind tree name) (memberSpan span decorator)
      (.member ⟨name, modifiers, docs⟩) children

def memberChildren (source : SourceText) (name : Option MemberName) :
    List ParseTree → Converted (List Node)
  | [] => return []
  | child :: rest => do
    if ← isMemberPart source name child then
      let first ← convert source child
      let others ← memberChildren source name rest
      return first :: others
    else memberChildren source name rest

def classParts (source : SourceText) : List ParseTree → Converted ClassParts
  | [] => return {}
  | child :: rest => do
    if child.type = "decorator" then
      let first ← convert source child
      let others ← classParts source rest
      return ClassParts.append { nodes := [first] } others
    else
      let first ← classPart source child
      let others ← classParts source rest
      return first.append others

def classPart (source : SourceText) : ParseTree → Converted ClassParts
  | .node type named range field children => do
    let tree := ParseTree.node type named range field children
    if type = "class_heritage" then
      let clauses ← heritageClauses source children
      return {
        heritage := some (clauses.map ClauseNodes.clause)
        nodes := clauses.flatMap ClauseNodes.nodes }
    else if type = "class_body" then
      let nodes ← convertAll source .classBody [] none children
      return { properties := some (← bodyProperties source tree), nodes }
    else return {}

def heritageClauses (source : SourceText) : List ParseTree → Converted (List ClauseNodes)
  | [] => return []
  | .node type named range field children :: rest => do
    let clause := ParseTree.node type named range field children
    match heritageToken? clause with
    | some token =>
      let nodes ← convertReferences source (isClauseValue clause) children
      let others ← heritageClauses source rest
      return ⟨token, nodes⟩ :: others
    | none => heritageClauses source rest

/-- Converts the children that name types to references. -/
def convertReferences (source : SourceText) (isValue : ParseTree → Bool) :
    List ParseTree → Converted (List Node)
  | [] => return []
  | child :: rest => do
    if isValue child then
      let first ← convertReference source child
      let others ← convertReferences source isValue rest
      return first :: others
    else convertReferences source isValue rest

def convertReference (source : SourceText) : ParseTree → Converted Node
  | .node type named range field children => do
    let tree := ParseTree.node type named range field children
    let name ← referenceName source tree
    let span ← source.span tree
    let children ← convertAll source .other [] none children
    return .mk .typeReference span (.reference name source.file) children

def interfaceBases (source : SourceText) : List ParseTree → Converted (List Node)
  | [] => return []
  | .node type named range field children :: rest => do
    if isBaseClause (.node type named range field children) then
      let first ← convertReferences source (·.named) children
      let others ← interfaceBases source rest
      return first ++ others
    else interfaceBases source rest

def interfaceBody (source : SourceText) : List ParseTree → Converted BodyParts
  | [] => return {}
  | .node type named range field children :: rest => do
    if field == some "body" then
      let names ← signatureNames source (.node type named range field children)
      let nodes ← convertAll source .other [] none children
      return ⟨names, nodes⟩
    else interfaceBody source rest

end

/-- The tree of a whole file. -/
def convertRoot (source : SourceText) (root : ParseTree) : Converted Node := do
  let span ← source.span root
  let children ← convertAll source .other [] none root.children
  return .mk .sourceFile span .plain children

end ParseTree

namespace SourceFile

def syntaxErrors (file : String) : LogEntry :=
  ⟨.info, .conversion, s!"{file}: source contains syntax errors; analysing what parsed"⟩

/-- A file with the tree of its text. -/
def ofParsed (file : String) (text : Text) (parsed : ParsedText) : Converted SourceFile := do
  if parsed.hasError then Logged.tell [syntaxErrors file]
  let root ← ParseTree.convertRoot (.ofText file text) parsed.root
  return ⟨file, text, root⟩

end SourceFile
end OverrideLint
