import OverrideLint.Span

/-! Concrete syntax trees as a parser delivers them. A node has the name of its
grammar rule, a range of the text, and the field of its parent that it fills; tokens
are nodes without a name of their own. -/
namespace OverrideLint

/-- A range of bytes of the encoded text. Nothing is promised about the bounds; they are
checked where the range is used. -/
structure ByteRange where
  start : Int
  stop : Int
deriving DecidableEq, Repr

inductive ParseTree
  | node (type : String) (named : Bool) (range : ByteRange) (field : Option String)
      (children : List ParseTree)

namespace ParseTree

def type : ParseTree → String
  | node type _ _ _ _ => type

def named : ParseTree → Bool
  | node _ named _ _ _ => named

def range : ParseTree → ByteRange
  | node _ _ range _ _ => range

def field : ParseTree → Option String
  | node _ _ _ field _ => field

def children : ParseTree → List ParseTree
  | node _ _ _ _ children => children

def namedChildren (tree : ParseTree) : List ParseTree :=
  tree.children.filter (·.named)

/-- The first child that fills a field. -/
def child? (tree : ParseTree) (field : String) : Option ParseTree :=
  tree.children.find? (·.field == some field)

end ParseTree

/-- A text as a parser sees it: its tree, and whether parts of it did not parse. -/
structure ParsedText where
  hasError : Bool
  root : ParseTree

end OverrideLint
