import OverrideLint.DocComment.Basic

/-! The tree that the rule is checked on. Every node has a kind, a span and
children; its role says what else is known of it. Kind and role are independent:
only the converter keeps them in step. -/
namespace OverrideLint

inductive Kind
  | sourceFile
  | classDeclaration
  | classExpression
  | interfaceDeclaration
  | constructor
  | method
  | property
  | getAccessor
  | setAccessor
  | indexSignature
  | staticBlock
  | typeReference
  | other
deriving DecidableEq, Repr

namespace Kind

def isClass : Kind → Bool
  | classDeclaration | classExpression => true
  | _ => false

/-- Kinds of members that can shadow a member of the same name in a base type. -/
def isOverrideable : Kind → Bool
  | method | property | getAccessor | setAccessor => true
  | _ => false

def isMember : Kind → Bool
  | constructor | indexSignature | staticBlock => true
  | kind => kind.isOverrideable

def name : Kind → String
  | sourceFile => "SOURCE_FILE"
  | classDeclaration => "CLASS_DECLARATION"
  | classExpression => "CLASS_EXPRESSION"
  | interfaceDeclaration => "INTERFACE_DECLARATION"
  | constructor => "CONSTRUCTOR"
  | method => "METHOD"
  | property => "PROPERTY"
  | getAccessor => "GET_ACCESSOR"
  | setAccessor => "SET_ACCESSOR"
  | indexSignature => "INDEX_SIGNATURE"
  | staticBlock => "STATIC_BLOCK"
  | typeReference => "TYPE_REFERENCE"
  | other => "OTHER"

end Kind

inductive Modifier
  | abstract
  | accessor
  | async
  | declare
  | isOverride
  | isPrivate
  | isProtected
  | isPublic
  | readonly
  | static
deriving DecidableEq, Repr

namespace Modifier

/-- All modifiers, in the order of their names. -/
def all : List Modifier :=
  [abstract, accessor, async, declare, isOverride, isPrivate, isProtected, isPublic, readonly,
    static]

def name : Modifier → String
  | abstract => "abstract"
  | accessor => "accessor"
  | async => "async"
  | declare => "declare"
  | isOverride => "override"
  | isPrivate => "private"
  | isProtected => "protected"
  | isPublic => "public"
  | readonly => "readonly"
  | static => "static"

end Modifier

inductive HeritageToken
  | extending
  | implementing
deriving DecidableEq, Repr

def HeritageToken.name : HeritageToken → String
  | extending => "extends"
  | implementing => "implements"

/-- A base type as a heritage clause names it, without type arguments. -/
structure TypeReference where
  name : String
  span : Span
  file : String
deriving DecidableEq

structure HeritageClause where
  token : HeritageToken
  types : List TypeReference
deriving DecidableEq

structure MemberName where
  text : String
  span : Span
  computed : Bool
deriving DecidableEq

/-- The name of a member as far as it is known before the program runs. -/
def MemberName.staticText (name : MemberName) : Option String :=
  if name.computed then none else some name.text

structure Member where
  name : Option MemberName
  modifiers : List Modifier
  docs : List DocComment
deriving DecidableEq

def Member.isStatic (member : Member) : Bool := member.modifiers.contains .static

/-- A class without any heritage clause has no heritage. -/
structure ClassInfo where
  name : Option String
  heritage : Option (List HeritageClause)
  parameterProperties : List String
deriving DecidableEq

/-- The references of all clauses in order. -/
def ClassInfo.references (info : ClassInfo) : List TypeReference :=
  (info.heritage.getD []).flatMap (·.types)

def ClassInfo.extendsNames (info : ClassInfo) : List String :=
  (((info.heritage.getD []).filter (·.token = .extending)).flatMap (·.types)).map (·.name)

structure InterfaceInfo where
  name : String
  bases : List TypeReference
  memberNames : List String
deriving DecidableEq

inductive Role
  | plain
  | classLike (info : ClassInfo)
  | interfaceLike (info : InterfaceInfo)
  | member (info : Member)
  | reference (name file : String)
deriving DecidableEq

inductive Node
  | mk (kind : Kind) (span : Span) (role : Role) (children : List Node)

namespace Node

def kind : Node → Kind
  | mk kind _ _ _ => kind

def span : Node → Span
  | mk _ span _ _ => span

def role : Node → Role
  | mk _ _ role _ => role

def children : Node → List Node
  | mk _ _ _ children => children

def member? (node : Node) : Option Member :=
  match node.role with
  | .member info => some info
  | _ => none

def class? (node : Node) : Option ClassInfo :=
  match node.role with
  | .classLike info => some info
  | _ => none

def reference? (node : Node) : Option TypeReference :=
  match node.role with
  | .reference name file => some ⟨name, node.span, file⟩
  | _ => none

/-- The members directly below a node, with their kinds. -/
def members (node : Node) : List (Kind × Member) :=
  node.children.filterMap fun child => child.member?.map (child.kind, ·)

end Node

/-- The text of one file together with its tree. -/
structure SourceFile where
  file : String
  text : Text
  root : Node

end OverrideLint
