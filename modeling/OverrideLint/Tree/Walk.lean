import OverrideLint.Tree.Node

/-! Walking a tree. `walk` keeps a stack of nodes still to visit; `preorder` is the
recursive pre-order that it follows. -/
namespace OverrideLint

/-- A node met on a walk, with the node that lists it. -/
structure Visit where
  parent : Node
  node : Node

namespace Node

mutual

def size : Node → Nat
  | mk _ _ _ children => 1 + sizeAll children

def sizeAll : List Node → Nat
  | [] => 0
  | node :: rest => node.size + sizeAll rest

end

/-- The children of a node as the next ones to visit. -/
def visits (node : Node) : List Visit :=
  node.children.map (⟨node, ·⟩)

end Node

def stackSize (stack : List Visit) : Nat := Node.sizeAll (stack.map (·.node))

theorem Node.sizeAll_append (a b : List Node) :
    Node.sizeAll (a ++ b) = Node.sizeAll a + Node.sizeAll b := by
  induction a with
  | nil => simp [Node.sizeAll]
  | cons node rest ih => simp [Node.sizeAll, ih, Nat.add_assoc]

private theorem stackSize_visits_append (node : Node) (rest : List Visit) :
    1 + stackSize (node.visits ++ rest) = node.size + stackSize rest := by
  cases node
  simp [stackSize, Node.visits, Node.children, Node.size, Node.sizeAll_append, Function.comp_def,
    Nat.add_assoc]

/-- Visits the nodes of a stack, each before everything below it. -/
def walk (stack : List Visit) : List Visit :=
  match stack with
  | [] => []
  | visit :: rest => visit :: walk (visit.node.visits ++ rest)
termination_by stackSize stack
decreasing_by
  have := stackSize_visits_append visit.node rest
  simp only [stackSize, List.map_cons, Node.sizeAll] at *
  omega

namespace Node

mutual

/-- Everything below a node, in recursive pre-order. -/
def preorder : Node → List Visit
  | mk kind span role children => preorderAll (mk kind span role children) children

def preorderAll (parent : Node) : List Node → List Visit
  | [] => []
  | node :: rest => ⟨parent, node⟩ :: node.preorder ++ preorderAll parent rest

end

/-- Every node below a root, once. -/
def descendants (root : Node) : List Visit := walk root.visits

/-- The class members below a root, in the order of the walk. -/
def memberVisits (root : Node) : List (Visit × Member) :=
  root.descendants.filterMap fun visit => visit.node.member?.map (visit, ·)

end Node
end OverrideLint
