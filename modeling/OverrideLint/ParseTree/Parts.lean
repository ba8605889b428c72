import OverrideLint.ParseTree.OffsetMap
import OverrideLint.Text.Blank
import OverrideLint.Tree.Node

/-! What can be read off single nodes of a concrete tree: spans, names, modifiers,
kinds and parameter properties. Reading fails where it looks at a range that does not
fit the text; a range that nothing looks at does no harm. -/
namespace OverrideLint

/-- The text being converted, the name of its file and the map of its offsets. -/
structure SourceText where
  file : String
  text : Text
  offsets : OffsetMap
  offsets_eq : offsets = OffsetMap.ofText text

namespace SourceText

def ofText (file : String) (text : Text) : SourceText :=
  ⟨file, text, OffsetMap.ofText text, rfl⟩

def span (source : SourceText) (tree : ParseTree) : Except RangeError Span :=
  source.offsets.span tree.range

def slice (source : SourceText) (tree : ParseTree) : Except RangeError Text := do
  let span ← source.span tree
  return Text.slice source.text span.start span.stop

/-- The text of a node that may be missing. -/
def sliceOf? (source : SourceText) : Option ParseTree → Except RangeError Text
  | some tree => source.slice tree
  | none => return []

end SourceText

namespace ParseTree

def classKind? : String → Option Kind
  | "class_declaration" => some .classDeclaration
  | "abstract_class_declaration" => some .classDeclaration
  | "class" => some .classExpression
  | _ => none

/-- Which children of a node are members. -/
inductive Container
  | classBody
  | other

/-- Outside a class body only the methods and accessors of object literals count. -/
def Container.hasMember : Container → String → Bool
  | classBody, type =>
    ["method_definition", "method_signature", "abstract_method_signature",
      "public_field_definition", "index_signature", "class_static_block"].contains type
  | other, type => type == "method_definition"

def tokenModifier? : String → Option Modifier
  | "static" => some .static
  | "abstract" => some .abstract
  | "readonly" => some .readonly
  | "async" => some .async
  | "declare" => some .declare
  | "accessor" => some .accessor
  | "override_modifier" => some .isOverride
  | _ => none

/-- The word of an accessibility modifier; any other word counts as `public`. -/
def accessibility (word : Text) : Modifier :=
  if word = "protected".toList then .isProtected
  else if word = "private".toList then .isPrivate
  else .isPublic

def modifier? (source : SourceText) (tree : ParseTree) : Except RangeError (Option Modifier) :=
  if tree.type = "accessibility_modifier" then do
    return some (accessibility (Text.trim (← source.slice tree)))
  else return tokenModifier? tree.type

def modifiers (source : SourceText) (tree : ParseTree) : Except RangeError (List Modifier) := do
  let found ← tree.children.mapM (modifier? source)
  return Modifier.all.filter fun modifier => found.contains (some modifier)

/-- The name in a name node; the quotes of a string are dropped. -/
def nameOf (source : SourceText) (tree : ParseTree) : Except RangeError MemberName := do
  let span ← source.span tree
  let text := Text.slice source.text span.start span.stop
  if tree.type = "computed_property_name" then return ⟨String.ofList text, span, true⟩
  else if tree.type = "string" ∧ 2 ≤ text.length then
    return ⟨String.ofList (text.drop 1).dropLast, span, false⟩
  else return ⟨String.ofList text, span, false⟩

def memberName? (source : SourceText) (tree : ParseTree) :
    Except RangeError (Option MemberName) :=
  match tree.child? "name" with
  | some name => do return some (← nameOf source name)
  | none => return none

def hasToken (tree : ParseTree) (type : String) : Bool :=
  tree.children.any fun child => !child.named && child.type == type

def memberKind (tree : ParseTree) (name : Option MemberName) : Kind :=
  if tree.type = "index_signature" then .indexSignature
  else if tree.type = "class_static_block" then .staticBlock
  else if tree.type = "public_field_definition" then .property
  else if hasToken tree "get" then .getAccessor
  else if hasToken tree "set" then .setAccessor
  else if name.bind MemberName.staticText = some "constructor" then .constructor
  else .method

/-- A member starts at its first decorator, if that stands before it. -/
def memberSpan (span : Span) (decorator : Option Nat) : Span :=
  match decorator with
  | some start =>
    if h : start < span.start then
      ⟨start, span.stop, Nat.le_trans (Nat.le_of_lt h) span.start_le_stop⟩
    else span
  | none => span

/-- The name that a reference starts with, without type arguments and blanks. -/
def referenceName (source : SourceText) (tree : ParseTree) : Except RangeError String := do
  let target := if tree.type = "generic_type" then (tree.child? "name").getD tree else tree
  let text ← source.slice target
  return String.ofList ((text.takeWhile (· != '<')).filter (!Text.isBlank ·))

/-- The children of a heritage clause that name types. -/
def isClauseValue (clause : ParseTree) (child : ParseTree) : Bool :=
  if clause.type = "extends_clause" then
    if clause.children.any (·.field == some "value") then child.field == some "value"
    else child.named && child.type != "type_arguments"
  else child.named

def heritageToken? (tree : ParseTree) : Option HeritageToken :=
  if !tree.named then none
  else if tree.type = "extends_clause" then some .extending
  else if tree.type = "implements_clause" then some .implementing
  else none

def isParameterProperty (tree : ParseTree) : Bool :=
  tree.children.any fun child =>
    ["accessibility_modifier", "readonly", "override_modifier"].contains child.type

/-- The name of a parameter that declares a property as well. -/
def parameterName? (source : SourceText) (tree : ParseTree) :
    Except RangeError (Option String) :=
  match (tree.child? "pattern").filter fun pattern =>
      isParameterProperty tree && pattern.type == "identifier" with
  | some pattern => do return some (String.ofList (← source.slice pattern))
  | none => return none

def isConstructor (source : SourceText) (method : ParseTree) : Except RangeError Bool := do
  return (← source.sliceOf? (method.child? "name")) == "constructor".toList

/-- The parameters of a constructor that declare properties as well. -/
def methodProperties (source : SourceText) (method : ParseTree) :
    Except RangeError (List String) := do
  if ← isConstructor source method then
    let parameters := ((method.child? "parameters").map (·.namedChildren)).getD []
    return (← parameters.mapM (parameterName? source)).reduceOption
  else return []

def bodyProperties (source : SourceText) (body : ParseTree) :
    Except RangeError (List String) := do
  let methods := body.namedChildren.filter (·.type == "method_definition")
  return (← methods.mapM (methodProperties source)).flatten

/-- The name of a class; a class without one has the empty text there. -/
def className? (source : SourceText) (tree : ParseTree) : Except RangeError (Option String) := do
  let text ← source.sliceOf? (tree.child? "name")
  return if text.isEmpty then none else some (String.ofList text)

def isBaseClause (tree : ParseTree) : Bool :=
  tree.named && tree.type = "extends_type_clause"

def signatureName? (source : SourceText) (tree : ParseTree) :
    Except RangeError (Option String) := do
  return (← memberName? source tree).bind MemberName.staticText

/-- The names that the signatures of an interface body declare. -/
def signatureNames (source : SourceText) (body : ParseTree) :
    Except RangeError (List String) := do
  let signatures := body.namedChildren.filter fun child =>
    child.type == "property_signature" || child.type == "method_signature"
  return (← signatures.mapM (signatureName? source)).reduceOption

def isMemberTrivia (type : String) : Bool :=
  ["accessibility_modifier", "override_modifier", "comment"].contains type

/-- Modifiers, comments and the name of a member do not become nodes below it. -/
def isMemberPart (source : SourceText) (name : Option MemberName) (child : ParseTree) :
    Except RangeError Bool :=
  if !child.named || isMemberTrivia child.type then return false
  else match name with
    | some known => do return (← source.span child) != known.span
    | none => return true

end ParseTree
end OverrideLint
