import OverrideLint.Tree.Walk

/-! The category of a class member decides which check applies to it. -/
namespace OverrideLint

inductive Category
  | constructor
  | overrideable
  | static
  | detached
  | unnamed
  | nonOverrideable
deriving DecidableEq, Repr

namespace Category

def all : List Category :=
  [constructor, overrideable, static, detached, unnamed, nonOverrideable]

def name : Category → String
  | constructor => "constructor"
  | overrideable => "overrideable"
  | static => "static"
  | detached => "detached"
  | unnamed => "unnamed"
  | nonOverrideable => "non-overrideable"

/-- Only such members are looked up in the base types. -/
def needsHeritage : Category → Bool
  | overrideable => true
  | _ => false

/-- The category of a member of a given kind below a given node. -/
def ofMember (parent : Node) (kind : Kind) (member : Member) : Category :=
  if kind = .constructor then constructor
  else if !kind.isOverrideable then nonOverrideable
  else if member.isStatic then static
  else if parent.class?.isNone || !parent.kind.isClass then detached
  else if (member.name.bind MemberName.staticText).isNone then unnamed
  else overrideable

end Category
end OverrideLint
