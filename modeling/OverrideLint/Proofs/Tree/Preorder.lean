import OverrideLint.Tree.Walk

/-! The walk over a stack of nodes is the recursive pre-order: each node, then all that
is below it, then what is left of the stack. -/
namespace OverrideLint

namespace Node

private theorem preorderAll_eq (parent : Node) (nodes : List Node) :
    preorderAll parent nodes =
      (nodes.map (Visit.mk parent)).flatMap fun visit => visit :: visit.node.preorder := by
  induction nodes with
  | nil => rw [preorderAll, List.map_nil, List.flatMap_nil]
  | cons node rest ih => rw [preorderAll, ih, List.map_cons, List.flatMap_cons]

theorem preorder_eq (node : Node) :
    node.preorder = node.visits.flatMap fun visit => visit :: visit.node.preorder := by
  cases node with
  | mk kind span role children => rw [preorder, preorderAll_eq, visits, Node.children]

end Node

private theorem walk_eq_flatMap (stack : List Visit) :
    walk stack = stack.flatMap fun visit => visit :: visit.node.preorder := by
  induction stack using walk.induct with
  | case1 => rw [walk, List.flatMap_nil]
  | case2 visit rest ih =>
    rw [walk, ih, List.flatMap_append, ← Node.preorder_eq, List.flatMap_cons, List.cons_append]

namespace Node

theorem descendants_eq (root : Node) : root.descendants = root.preorder := by
  rw [descendants, walk_eq_flatMap, ← preorder_eq]

theorem mem_visits {node : Node} {visit : Visit} :
    visit ∈ node.visits ↔ visit.parent = node ∧ visit.node ∈ node.children := by
  obtain ⟨parent, child⟩ := visit
  simp only [visits, List.mem_map, Visit.mk.injEq]
  constructor
  · rintro ⟨_, hchild, rfl, rfl⟩
    exact ⟨rfl, hchild⟩
  · rintro ⟨rfl, hchild⟩
    exact ⟨child, hchild, rfl, rfl⟩

theorem mem_preorder_iff {root : Node} {visit : Visit} :
    visit ∈ root.preorder ↔
      visit ∈ root.visits ∨ ∃ first ∈ root.visits, visit ∈ first.node.preorder := by
  rw [preorder_eq, List.mem_flatMap]
  simp only [List.mem_cons]
  grind

theorem sizeOf_lt_of_mem_children {node child : Node} (h : child ∈ node.children) :
    sizeOf child < sizeOf node := by
  cases node with
  | mk kind span role children =>
    have := List.sizeOf_lt_of_mem h
    simp only [Node.children, Node.mk.sizeOf_spec] at this ⊢
    omega

private theorem parent_of_mem_preorder {root : Node} {visit : Visit} (h : visit ∈ root.preorder) :
    visit ∈ visit.parent.visits ∧
      (visit.parent = root ∨ ∃ above ∈ root.preorder, above.node = visit.parent) := by
  rcases mem_preorder_iff.1 h with hown | ⟨first, hfirst, hbelow⟩
  · have hparent := (mem_visits.1 hown).1
    exact ⟨hparent ▸ hown, .inl hparent⟩
  · have := sizeOf_lt_of_mem_children (mem_visits.1 hfirst).2
    obtain ⟨hlisted, hparent | ⟨above, habove, hnode⟩⟩ := parent_of_mem_preorder hbelow
    · exact ⟨hlisted, .inr ⟨first, mem_preorder_iff.2 (.inl hfirst), hparent.symm⟩⟩
    · exact ⟨hlisted, .inr ⟨above, mem_preorder_iff.2 (.inr ⟨first, hfirst, habove⟩), hnode⟩⟩
termination_by sizeOf root

private theorem visits_subset_preorder {root : Node} {above visit : Visit}
    (habove : above ∈ root.preorder) (h : visit ∈ above.node.visits) : visit ∈ root.preorder := by
  apply mem_preorder_iff.2
  rcases mem_preorder_iff.1 habove with hown | ⟨first, hfirst, hbelow⟩
  · exact .inr ⟨above, hown, mem_preorder_iff.2 (.inl h)⟩
  · have := sizeOf_lt_of_mem_children (mem_visits.1 hfirst).2
    exact .inr ⟨first, hfirst, visits_subset_preorder hbelow h⟩
termination_by sizeOf root

theorem mem_descendants_iff {root : Node} {visit : Visit} :
    visit ∈ root.descendants ↔
      (visit.parent = root ∨ ∃ above ∈ root.descendants, above.node = visit.parent) ∧
        visit.node ∈ visit.parent.children := by
  simp only [descendants_eq]
  constructor
  · intro h
    obtain ⟨hlisted, hparent⟩ := parent_of_mem_preorder h
    exact ⟨hparent, (mem_visits.1 hlisted).2⟩
  · rintro ⟨hparent | ⟨above, habove, hnode⟩, hlisted⟩
    · exact mem_preorder_iff.2 (.inl (mem_visits.2 ⟨hparent, hparent ▸ hlisted⟩))
    · exact visits_subset_preorder habove (mem_visits.2 ⟨hnode.symm, hnode ▸ hlisted⟩)

end Node

end OverrideLint
