import Mathlib.Data.List.Forall2
import OverrideLint.Proofs.Tree.Preorder
import OverrideLint.Rule.Check

/-! The walk in terms of places. An address is the list of child indices on the way to a node, so
equal nodes at two places stay apart. The walk goes through all addresses but that of the root, in
pre-order, and its class members are visited in that order. -/
namespace OverrideLint

/-- The first address leads to a node that the second one lies below, or goes into an earlier
child where the two part. -/
inductive Precedes : List Nat → List Nat → Prop
  | above (address : List Nat) (index : Nat) (rest : List Nat) :
    Precedes address (address ++ index :: rest)
  | earlier (shared : List Nat) {first second : Nat} (h : first < second)
      (rest rest' : List Nat) :
    Precedes (shared ++ first :: rest) (shared ++ second :: rest')

theorem Precedes.cons {address address' : List Nat} (index : Nat) (h : Precedes address address') :
    Precedes (index :: address) (index :: address') := by
  cases h with
  | above _ next rest => exact .above (index :: address) next rest
  | earlier shared h rest rest' => exact .earlier (index :: shared) h rest rest'

theorem Precedes.ne {address address' : List Nat} (h : Precedes address address') :
    address ≠ address' := by
  cases h with
  | above => simp
  | earlier shared h => simp [Nat.ne_of_lt h]

namespace Node

def at? (node : Node) : List Nat → Option Node
  | [] => some node
  | index :: rest => node.children[index]?.bind (·.at? rest)

def MetAt (root : Node) (address : List Nat) (visit : Visit) : Prop :=
  ∃ above index, address = above ++ [index] ∧ root.at? above = some visit.parent ∧
    visit.parent.children[index]? = some visit.node

/-- The addresses of everything below a root, each once, in pre-order. -/
structure InPreorder (root : Node) (addresses : List (List Nat)) : Prop where
  all : ∀ address, address ∈ addresses ↔ address ≠ [] ∧ (root.at? address).isSome = true
  once : addresses.Nodup
  ordered : addresses.Pairwise Precedes

mutual

def addresses : Node → List (List Nat)
  | mk _ _ _ children => addressesFrom 0 children

def addressesFrom (index : Nat) : List Node → List (List Nat)
  | [] => []
  | node :: rest => [index] :: node.addresses.map (index :: ·) ++ addressesFrom (index + 1) rest

end

private theorem addresses_eq (node : Node) : node.addresses = addressesFrom 0 node.children := by
  cases node
  rw [addresses, children]

private theorem mem_addressesFrom {nodes : List Node} {start : Nat} {address : List Nat} :
    address ∈ addressesFrom start nodes ↔ ∃ index node rest, nodes[index]? = some node ∧
      address = (start + index) :: rest ∧ (rest = [] ∨ rest ∈ node.addresses) := by
  induction nodes generalizing start with
  | nil => simp [addressesFrom]
  | cons node nodes ih =>
    have hfirst : address ∈ [start] :: node.addresses.map (start :: ·) ↔
        ∃ rest, address = start :: rest ∧ (rest = [] ∨ rest ∈ node.addresses) := by
      simp only [List.mem_cons, List.mem_map]
      grind
    rw [addressesFrom, List.mem_append, hfirst, ih]
    constructor
    · rintro (⟨rest, hrest⟩ | ⟨index, found, rest, hfound, rfl, hrest⟩)
      · exact ⟨0, node, rest, rfl, hrest⟩
      · exact ⟨index + 1, found, rest, hfound, by rw [Nat.add_right_comm, Nat.add_assoc], hrest⟩
    · rintro ⟨index, found, rest, hfound, rfl, hrest⟩
      cases index with
      | zero =>
        cases hfound
        exact .inl ⟨rest, rfl, hrest⟩
      | succ index => exact .inr ⟨index, found, rest, hfound, by grind, hrest⟩

private theorem mem_addresses_iff {root : Node} {address : List Nat} :
    address ∈ root.addresses ↔ address ≠ [] ∧ (root.at? address).isSome = true := by
  induction address generalizing root with
  | nil =>
    rw [addresses_eq, mem_addressesFrom]
    simp
  | cons index rest ih =>
    have hrest (child : Node) :
        rest = [] ∨ rest ∈ child.addresses ↔ (child.at? rest).isSome = true := by
      rw [ih]
      cases rest with
      | nil => simp [at?]
      | cons => simp
    rw [addresses_eq, mem_addressesFrom, at?, Option.isSome_bind, Option.any_eq_true]
    constructor
    · rintro ⟨_, child, _, hchild, heq, hbelow⟩
      obtain ⟨rfl, rfl⟩ := List.cons.inj heq
      rw [Nat.zero_add]
      exact ⟨nofun, child, hchild, (hrest child).1 hbelow⟩
    · rintro ⟨-, child, hchild, hbelow⟩
      exact ⟨index, child, rest, hchild, by rw [Nat.zero_add], (hrest child).2 hbelow⟩

private theorem pairwise_addressesFrom {nodes : List Node} (start : Nat)
    (h : ∀ node ∈ nodes, node.addresses.Pairwise Precedes) :
    (addressesFrom start nodes).Pairwise Precedes := by
  induction nodes generalizing start with
  | nil => rw [addressesFrom]; exact .nil
  | cons node nodes ih =>
    obtain ⟨hnode, hnodes⟩ := List.forall_mem_cons.1 h
    rw [addressesFrom, List.pairwise_append, List.pairwise_cons]
    refine ⟨⟨?_, ?_⟩, ih (start + 1) hnodes, ?_⟩
    · -- a node comes before all that is below it
      intro address haddress
      obtain ⟨rest, hrest, rfl⟩ := List.mem_map.1 haddress
      obtain ⟨index, rest, rfl⟩ := List.exists_cons_of_ne_nil (mem_addresses_iff.1 hrest).1
      exact .above [start] index rest
    · exact hnode.map _ fun _ _ => Precedes.cons start
    · -- and all of that before the children that follow
      intro address haddress later hlater
      obtain ⟨index, _, rest', -, rfl, -⟩ := mem_addressesFrom.1 hlater
      obtain ⟨rest, rfl⟩ : ∃ rest, address = start :: rest := by
        simp only [List.mem_cons, List.mem_map] at haddress
        grind
      exact .earlier [] (by omega) rest rest'

private theorem pairwise_addresses (root : Node) : root.addresses.Pairwise Precedes := by
  rw [addresses_eq]
  apply pairwise_addressesFrom
  intro child hchild
  have := sizeOf_lt_of_mem_children hchild
  exact pairwise_addresses child
termination_by sizeOf root

private theorem inPreorder_addresses (root : Node) : root.InPreorder root.addresses where
  all _ := mem_addresses_iff
  once := (pairwise_addresses root).imp Precedes.ne
  ordered := pairwise_addresses root

private theorem metAt_child {root child : Node} {index : Nat}
    (h : root.children[index]? = some child) :
    root.MetAt [index] ⟨root, child⟩ :=
  ⟨[], index, rfl, rfl, h⟩

theorem MetAt.cons {root child : Node} {index : Nat} (h : root.children[index]? = some child)
    {address : List Nat} {visit : Visit} (hmet : child.MetAt address visit) :
    root.MetAt (index :: address) visit := by
  obtain ⟨above, last, rfl, habove, hnode⟩ := hmet
  refine ⟨index :: above, last, rfl, ?_, hnode⟩
  rw [at?, h, Option.bind_some, habove]

private theorem forall₂_metAt_from {root : Node} {nodes : List Node} (before : List Node)
    (hchildren : root.children = before ++ nodes)
    (h : ∀ node ∈ nodes, List.Forall₂ node.MetAt node.addresses node.preorder) :
    List.Forall₂ root.MetAt (addressesFrom before.length nodes) (preorderAll root nodes) := by
  induction nodes generalizing before with
  | nil =>
    rw [addressesFrom, preorderAll]
    exact .nil
  | cons node nodes ih =>
    obtain ⟨hnode, hnodes⟩ := List.forall_mem_cons.1 h
    have hplace : root.children[before.length]? = some node := by simp [hchildren]
    have hrest := ih (before ++ [node]) (by simp [hchildren]) hnodes
    rw [List.length_append, List.length_singleton] at hrest
    rw [addressesFrom, preorderAll]
    refine List.rel_append (.cons (metAt_child hplace) ?_) hrest
    exact List.forall₂_map_left_iff.2 (hnode.imp fun _ _ => MetAt.cons hplace)

private theorem forall₂_metAt (root : Node) :
    List.Forall₂ root.MetAt root.addresses root.preorder := by
  have hchildren : ∀ child ∈ root.children,
      List.Forall₂ child.MetAt child.addresses child.preorder := by
    intro child hchild
    have := sizeOf_lt_of_mem_children hchild
    exact forall₂_metAt child
  have hall := forall₂_metAt_from [] rfl hchildren
  cases root
  rw [addresses, preorder]
  exact hall
termination_by sizeOf root

private theorem map_fst_memberVisits (root : Node) :
    root.memberVisits.map Prod.fst = root.descendants.filter (·.node.member?.isSome) := by
  rw [memberVisits, List.map_filterMap, ← List.filterMap_eq_filter]
  apply List.filterMap_congr
  intro visit _
  cases h : visit.node.member? <;> simp [Option.guard, h]

end Node

namespace Rule

variable {m : Type → Type} [Monad m] [LawfulMonad m]

theorem checkMembers_eq_mapM (resolve : TypeReference → m Resolution) (ctx : RuleContext)
    (members : List (Visit × Member)) :
    checkMembers resolve ctx members =
      List.flatten <$> members.mapM fun met => checkMember resolve ctx met.1 met.2 := by
  induction members with
  | nil => simp [checkMembers]
  | cons met rest ih => simp [checkMembers, ih]

end Rule

namespace Node

/-- The walk with a stack is the recursive pre-order: it meets every address below the root once, a
node before all that is below it and after all that is in earlier siblings. The class members among
the nodes met are visited in that order, whatever a visit does, and counted. -/
theorem descendants_in_preorder {m : Type → Type} [Monad m] [LawfulMonad m] (root : Node) :
    root.descendants = root.preorder ∧
      root.preorder = root.children.flatMap (fun child => ⟨root, child⟩ :: child.preorder) ∧
      (∃ addresses, root.InPreorder addresses ∧
        List.Forall₂ root.MetAt addresses root.descendants) ∧
      root.memberVisits.map Prod.fst = root.descendants.filter (·.node.member?.isSome) ∧
      (∀ met ∈ root.memberVisits, met.1.node.member? = some met.2) ∧
      root.memberVisits.length = root.descendants.countP (·.node.member?.isSome) ∧
      ∀ (resolve : TypeReference → m Resolution) (severity : Severity) (file : String) (text : Text),
        Rule.check resolve severity ⟨file, text, root⟩ =
          List.flatten <$> root.memberVisits.mapM fun met =>
            Rule.checkMember resolve ⟨file, text, severity⟩ met.1 met.2 := by
  refine ⟨descendants_eq root, ?_, ⟨root.addresses, inPreorder_addresses root, ?_⟩,
    map_fst_memberVisits root, ?_, ?_, ?_⟩
  · rw [preorder_eq, visits, List.flatMap_map]
  · rw [descendants_eq]
    exact forall₂_metAt root
  · rintro ⟨visit, member⟩ hmet
    obtain ⟨_, _, hvisit⟩ := List.mem_filterMap.1 hmet
    obtain ⟨_, hmember, heq⟩ := Option.map_eq_some_iff.1 hvisit
    cases heq
    exact hmember
  · rw [List.countP_eq_length_filter, ← map_fst_memberVisits, List.length_map]
  · intro resolve severity file text
    exact Rule.checkMembers_eq_mapM resolve _ _

def bareMember (kind : Kind) (children : List Node) : Node :=
  mk kind ⟨0, 0, by decide⟩ (.member ⟨none, [], []⟩) children

def nestedMembers : Node :=
  mk .sourceFile ⟨0, 0, by decide⟩ .plain
    [bareMember .method [mk .classExpression ⟨0, 0, by decide⟩ (.classLike ⟨none, none, []⟩)
      [bareMember .property []]], bareMember .method []]

theorem descendants_in_preorder_nested :
    nestedMembers.descendants.map (·.node.kind) = [.method, .classExpression, .property, .method] ∧
      nestedMembers.memberVisits.map (·.1.node.kind) = [.method, .property, .method] ∧
      nestedMembers.memberVisits.length = 3 ∧
      ∃ addresses, nestedMembers.InPreorder addresses ∧
        List.Forall₂ nestedMembers.MetAt addresses nestedMembers.descendants := by
  obtain ⟨hwalk, -, haddresses, hvisits, -, hcount, -⟩ :=
    descendants_in_preorder (m := Logged) nestedMembers
  have hkinds : nestedMembers.memberVisits.map (·.1.node.kind) =
      (nestedMembers.memberVisits.map Prod.fst).map (·.node.kind) := by simp
  refine ⟨?_, ?_, ?_, haddresses⟩
  · rw [hwalk]
    rfl
  · rw [hkinds, hvisits, hwalk]
    rfl
  · rw [hcount, hwalk]
    rfl

end Node
end OverrideLint
