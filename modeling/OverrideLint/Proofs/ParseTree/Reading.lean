import OverrideLint.ParseTree.Conversion
import OverrideLint.Proofs.Tree.Preorder
import Mathlib.Data.List.Forall2

/-! How a concrete tree is read. Each node of the converted tree comes from one node of the
concrete tree, read in one of four ways, and `parts` lists what is read directly below
it. The walk over the converted tree meets what is read of the concrete tree, in order. -/
namespace OverrideLint

def Yields {α : Type} (action : Converted α) (value : α) : Prop := action.run.value = .ok value

section Yields

variable {α β : Type} {value : α} {result : β}

@[simp]
theorem yields_pure {other : α} : Yields (pure other) value ↔ other = value :=
  ⟨Except.ok.inj, congrArg Except.ok⟩

@[simp]
theorem yields_bind {action : Converted α} {next : α → Converted β} :
    Yields (action >>= next) result ↔ ∃ value, Yields action value ∧ Yields (next value) result := by
  change (ExceptT.bindCont next action.run.value).value = _ ↔ ∃ value, action.run.value = _ ∧ _
  cases action.run.value with
  | ok value =>
    constructor
    · exact fun h => ⟨value, rfl, h⟩
    · rintro ⟨_, hvalue, h⟩
      cases hvalue
      exact h
  | error error =>
    constructor
    · exact fun h => nomatch h
    · rintro ⟨_, hvalue, _⟩
      cases hvalue

@[simp]
theorem yields_liftExcept {action : Except RangeError α} :
    Yields (liftM action : Converted α) value ↔ action = .ok value :=
  Iff.rfl

@[simp]
theorem yields_liftLogged {action : Logged α} :
    Yields (liftM action : Converted α) value ↔ action.value = value :=
  ⟨Except.ok.inj, congrArg Except.ok⟩

theorem exists_ok_of_map {ε : Type} {action : Except ε α} {f : α → β}
    (h : action.map f = .ok result) : ∃ value, action = .ok value ∧ f value = result := by
  cases action with
  | error error => cases h
  | ok value => exact ⟨value, rfl, Except.ok.inj h⟩

end Yields

namespace ParseTree

/-- What a node of the concrete tree is taken for. A member comes with the comments before
it and the start of its first decorator. -/
inductive Reading
  | file
  | node
  | member (docs : List DocComment) (decorator : Option Nat)
  | reference

variable {source : SourceText}

def Reads (source : SourceText) : Reading × ParseTree → Node → Prop
  | (.file, tree), read => Yields (convertRoot source tree) read
  | (.node, tree), read => Yields (convert source tree) read
  | (.member docs decorator, tree), read => Yields (convertMember source docs decorator tree) read
  | (.reference, tree), read => Yields (convertReference source tree) read

section Parts

def docsOf (source : SourceText) (comment : ParseTree) : List DocComment :=
  (docComments source comment).run.value.toOption.getD []

def startOf? (source : SourceText) (tree : ParseTree) : Option Nat :=
  (source.span tree).toOption.map (·.start)

def childParts (source : SourceText) (container : Container) (docs : List DocComment)
    (decorator : Option Nat) : List ParseTree → List (Reading × ParseTree)
  | [] => []
  | child :: rest =>
    if child.type = "comment" then
      childParts source container (docs ++ docsOf source child) decorator rest
    else if child.type = "decorator" then
      (.node, child) :: childParts source container docs (decorator.or (startOf? source child)) rest
    else if !child.named then childParts source container docs decorator rest
    else
      (if container.hasMember child.type then .member docs decorator else .node, child) ::
        childParts source container [] none rest

def blockParts (source : SourceText) (container : Container) (block : ParseTree) :
    List (Reading × ParseTree) :=
  childParts source container [] none block.children

def values (clause : ParseTree) : List ParseTree := clause.children.filter (isClauseValue clause)

def clauses (heritage : ParseTree) : List ParseTree :=
  heritage.children.filter (heritageToken? · |>.isSome)

def classChildParts (source : SourceText) (child : ParseTree) : List (Reading × ParseTree) :=
  if child.type = "decorator" then [(.node, child)]
  else if child.type = "class_heritage" then
    ((clauses child).flatMap values).map (.reference, ·)
  else if child.type = "class_body" then blockParts source .classBody child
  else []

def bases (interface : ParseTree) : List ParseTree :=
  (interface.children.filter isBaseClause).flatMap namedChildren

def interfaceParts (source : SourceText) (interface : ParseTree) : List (Reading × ParseTree) :=
  (bases interface).map (.reference, ·) ++
    ((interface.child? "body").map (blockParts source .other)).getD []

def isPart (source : SourceText) (member child : ParseTree) : Bool :=
  ((memberName? source member).toOption.bind fun name =>
    (isMemberPart source name child).toOption).getD false

def parts (source : SourceText) : Reading × ParseTree → List (Reading × ParseTree)
  | (.node, tree) =>
    if (classKind? tree.type).isSome then tree.children.flatMap (classChildParts source)
    else if tree.type = "interface_declaration" then interfaceParts source tree
    else blockParts source .other tree
  | (.member _ _, tree) => (tree.children.filter (isPart source tree)).map (.node, ·)
  | (.file, tree) => blockParts source .other tree
  | (.reference, tree) => blockParts source .other tree

end Parts

section Children

theorem yields_docComments {tree : ParseTree} {docs : List DocComment}
    (h : Yields (docComments source tree) docs) : docsOf source tree = docs := by
  rw [docsOf, h]
  rfl

theorem yields_decoratorStart {known : Option Nat} {tree : ParseTree} {start : Nat}
    (h : Yields (decoratorStart source known tree) start) :
    known.or (startOf? source tree) = some start := by
  cases known with
  | some known => exact congrArg some (yields_pure.1 h)
  | none =>
    simp only [decoratorStart, yields_bind, yields_liftExcept, yields_pure] at h
    obtain ⟨span, hspan, rfl⟩ := h
    rw [startOf?, hspan]
    rfl

private theorem forall₂_convertAll {container : Container} {docs : List DocComment}
    {decorator : Option Nat} {trees : List ParseTree} {nodes : List Node}
    (h : Yields (convertAll source container docs decorator trees) nodes) :
    List.Forall₂ (Reads source) (childParts source container docs decorator trees) nodes := by
  induction trees generalizing docs decorator nodes with
  | nil =>
    rw [convertAll, yields_pure] at h
    exact h ▸ .nil
  | cons child rest ih =>
    rw [convertAll] at h
    rw [childParts]
    split at h
    · rename_i hcomment
      obtain ⟨found, hfound, hrest⟩ := yields_bind.1 h
      rw [if_pos hcomment, yields_docComments hfound]
      exact ih hrest
    · rename_i hcomment
      rw [if_neg hcomment]
      split at h
      · rename_i hdecorator
        simp only [yields_bind, yields_pure] at h
        obtain ⟨start, hstart, first, hfirst, others, hothers, rfl⟩ := h
        rw [if_pos hdecorator, yields_decoratorStart hstart]
        exact .cons hfirst (ih hothers)
      · rename_i hdecorator
        rw [if_neg hdecorator]
        split at h
        · rename_i htoken
          rw [if_pos htoken]
          exact ih h
        · rename_i htoken
          rw [if_neg htoken]
          split at h
          · rename_i hmember
            simp only [yields_bind, yields_pure] at h
            obtain ⟨first, hfirst, others, hothers, rfl⟩ := h
            rw [if_pos hmember]
            exact .cons hfirst (ih hothers)
          · rename_i hmember
            simp only [yields_bind, yields_pure] at h
            obtain ⟨first, hfirst, others, hothers, rfl⟩ := h
            rw [if_neg hmember]
            exact .cons hfirst (ih hothers)

private theorem forall₂_memberChildren {name : Option MemberName} {trees : List ParseTree}
    {nodes : List Node} (h : Yields (memberChildren source name trees) nodes) :
    List.Forall₂ (Reads source)
      ((trees.filter fun child =>
        ((isMemberPart source name child).toOption.getD false)).map (.node, ·)) nodes := by
  induction trees generalizing nodes with
  | nil =>
    rw [memberChildren, yields_pure] at h
    exact h ▸ .nil
  | cons child rest ih =>
    rw [memberChildren, yields_bind] at h
    obtain ⟨isPart, hpart, h⟩ := h
    rw [yields_liftExcept] at hpart
    rw [List.filter_cons, hpart]
    cases isPart with
    | true =>
      simp only [if_true, yields_bind, yields_pure] at h
      obtain ⟨first, hfirst, others, hothers, rfl⟩ := h
      exact .cons hfirst (ih hothers)
    | false => exact ih h

private theorem forall₂_convertReferences {isValue : ParseTree → Bool} {trees : List ParseTree}
    {nodes : List Node} (h : Yields (convertReferences source isValue trees) nodes) :
    List.Forall₂ (Reads source) ((trees.filter isValue).map (.reference, ·)) nodes := by
  induction trees generalizing nodes with
  | nil =>
    rw [convertReferences, yields_pure] at h
    exact h ▸ .nil
  | cons child rest ih =>
    rw [convertReferences] at h
    split at h
    · rename_i hvalue
      simp only [yields_bind, yields_pure] at h
      obtain ⟨first, hfirst, others, hothers, rfl⟩ := h
      rw [List.filter_cons_of_pos hvalue]
      exact .cons hfirst (ih hothers)
    · rename_i hvalue
      rw [List.filter_cons_of_neg hvalue]
      exact ih h

structure ReadsClause (source : SourceText) (tree : ParseTree) (clause : ClauseNodes) : Prop where
  token : heritageToken? tree = some clause.token
  nodes : List.Forall₂ (Reads source) ((values tree).map (.reference, ·)) clause.nodes

theorem forall₂_heritageClauses {trees : List ParseTree} {found : List ClauseNodes}
    (h : Yields (heritageClauses source trees) found) :
    List.Forall₂ (ReadsClause source) (trees.filter (heritageToken? · |>.isSome)) found := by
  induction trees generalizing found with
  | nil =>
    rw [heritageClauses, yields_pure] at h
    exact h ▸ .nil
  | cons tree rest ih =>
    obtain ⟨type, named, range, field, children⟩ := tree
    rw [heritageClauses] at h
    split at h
    · rename_i token htoken
      simp only [yields_bind, yields_pure] at h
      obtain ⟨nodes, hnodes, others, hothers, rfl⟩ := h
      rw [List.filter_cons_of_pos (by rw [htoken]; rfl)]
      exact .cons ⟨htoken, forall₂_convertReferences hnodes⟩ (ih hothers)
    · rename_i htoken
      rw [List.filter_cons_of_neg (by rw [htoken]; exact Bool.false_ne_true)]
      exact ih h

theorem ReadsClause.flatMap {trees : List ParseTree} {found : List ClauseNodes}
    (h : List.Forall₂ (ReadsClause source) trees found) :
    List.Forall₂ (Reads source) ((trees.flatMap values).map (.reference, ·))
      (found.flatMap ClauseNodes.nodes) := by
  induction h with
  | nil => exact .nil
  | cons hclause _ ih =>
    rw [List.flatMap_cons, List.flatMap_cons, List.map_append]
    exact List.rel_append hclause.nodes ih

private theorem forall₂_classPart {tree : ParseTree} {found : ClassParts}
    (h : Yields (classPart source tree) found) (hdecorator : tree.type ≠ "decorator") :
    List.Forall₂ (Reads source) (classChildParts source tree) found.nodes := by
  obtain ⟨type, named, range, field, children⟩ := tree
  rw [classChildParts, if_neg hdecorator]
  rw [classPart] at h
  split at h
  · rename_i hheritage
    simp only [yields_bind, yields_pure] at h
    obtain ⟨clauses, hclauses, rfl⟩ := h
    rw [if_pos (by exact hheritage)]
    exact ReadsClause.flatMap (forall₂_heritageClauses hclauses)
  · rename_i hheritage
    rw [if_neg (by exact hheritage)]
    split at h
    · rename_i hbody
      simp only [yields_bind, yields_pure, yields_liftExcept] at h
      obtain ⟨nodes, hnodes, _, _, rfl⟩ := h
      rw [if_pos (by exact hbody)]
      exact forall₂_convertAll hnodes
    · rename_i hbody
      rw [yields_pure] at h
      rw [if_neg (by exact hbody), ← h]
      exact .nil

theorem forall₂_classParts {trees : List ParseTree} {found : ClassParts}
    (h : Yields (classParts source trees) found) :
    List.Forall₂ (Reads source) (trees.flatMap (classChildParts source)) found.nodes := by
  induction trees generalizing found with
  | nil =>
    rw [classParts, yields_pure] at h
    exact h ▸ .nil
  | cons child rest ih =>
    rw [classParts] at h
    rw [List.flatMap_cons]
    split at h
    · rename_i hdecorator
      simp only [yields_bind, yields_pure] at h
      obtain ⟨first, hfirst, others, hothers, rfl⟩ := h
      rw [classChildParts, if_pos hdecorator]
      exact .cons hfirst (ih hothers)
    · rename_i hdecorator
      simp only [yields_bind, yields_pure] at h
      obtain ⟨first, hfirst, others, hothers, rfl⟩ := h
      exact List.rel_append (forall₂_classPart hfirst hdecorator) (ih hothers)

private theorem forall₂_interfaceBases {trees : List ParseTree} {nodes : List Node}
    (h : Yields (interfaceBases source trees) nodes) :
    List.Forall₂ (Reads source)
      (((trees.filter isBaseClause).flatMap namedChildren).map (.reference, ·)) nodes := by
  induction trees generalizing nodes with
  | nil =>
    rw [interfaceBases, yields_pure] at h
    exact h ▸ .nil
  | cons tree rest ih =>
    obtain ⟨type, named, range, field, children⟩ := tree
    rw [interfaceBases] at h
    split at h
    · rename_i hclause
      simp only [yields_bind, yields_pure] at h
      obtain ⟨first, hfirst, others, hothers, rfl⟩ := h
      rw [List.filter_cons_of_pos hclause, List.flatMap_cons, List.map_append]
      exact List.rel_append (forall₂_convertReferences hfirst) (ih hothers)
    · rename_i hclause
      rw [List.filter_cons_of_neg hclause]
      exact ih h

private theorem forall₂_interfaceBody {trees : List ParseTree} {found : BodyParts}
    (h : Yields (interfaceBody source trees) found) :
    List.Forall₂ (Reads source)
      (((trees.find? (·.field == some "body")).map (blockParts source .other)).getD [])
      found.nodes := by
  induction trees generalizing found with
  | nil =>
    rw [interfaceBody, yields_pure] at h
    exact h ▸ .nil
  | cons tree rest ih =>
    obtain ⟨type, named, range, field, children⟩ := tree
    rw [interfaceBody] at h
    split at h
    · rename_i hbody
      simp only [yields_bind, yields_pure, yields_liftExcept] at h
      obtain ⟨_, _, nodes, hnodes, rfl⟩ := h
      rw [List.find?_cons_of_pos (by exact hbody)]
      exact forall₂_convertAll hnodes
    · rename_i hbody
      rw [List.find?_cons_of_neg (by exact hbody)]
      exact ih h

end Children

section Nodes

variable {tree : ParseTree} {node : Node}

theorem reads_class {kind : Kind} (h : Reads source (.node, tree) node)
    (hkind : classKind? tree.type = some kind) :
    ∃ name found, source.span tree = .ok node.span ∧ className? source tree = .ok name ∧
      Yields (classParts source tree.children) found ∧ node.kind = kind ∧
      node.role = .classLike ⟨name, found.heritage, found.properties.getD []⟩ ∧
      node.children = found.nodes := by
  obtain ⟨type, named, range, field, children⟩ := tree
  rw [Reads, convert, yields_bind] at h
  obtain ⟨span, hspan, h⟩ := h
  split at h
  · rename_i known hknown
    cases hknown.symm.trans hkind
    simp only [yields_bind, yields_pure, yields_liftExcept] at h
    obtain ⟨name, hname, found, hfound, rfl⟩ := h
    exact ⟨name, found, hspan, hname, hfound, rfl, rfl, rfl⟩
  · rename_i hnone
    exact absurd hkind (hnone _)

theorem reads_member {docs : List DocComment} {decorator : Option Nat}
    (h : Reads source (.member docs decorator, tree) node) :
    ∃ span name modifiers, source.span tree = .ok span ∧ memberName? source tree = .ok name ∧
      Yields (memberChildren source name tree.children) node.children ∧
      node.kind = memberKind tree name ∧ node.span = memberSpan span decorator ∧
      node.role = .member ⟨name, modifiers, docs⟩ := by
  obtain ⟨type, named, range, field, children⟩ := tree
  rw [Reads, convertMember] at h
  simp only [yields_bind, yields_pure, yields_liftExcept] at h
  obtain ⟨span, hspan, name, hname, modifiers, _, nodes, hnodes, rfl⟩ := h
  exact ⟨span, name, modifiers, hspan, hname, hnodes, rfl, rfl, rfl⟩

theorem reads_reference (h : Reads source (.reference, tree) node) :
    ∃ name, source.span tree = .ok node.span ∧ referenceName source tree = .ok name ∧
      node.role = .reference name source.file ∧
      Yields (convertAll source .other [] none tree.children) node.children := by
  obtain ⟨type, named, range, field, children⟩ := tree
  rw [Reads, convertReference] at h
  simp only [yields_bind, yields_pure, yields_liftExcept] at h
  obtain ⟨name, hname, span, hspan, nodes, hnodes, rfl⟩ := h
  exact ⟨name, hspan, hname, rfl, hnodes⟩

theorem reads_other (h : Reads source (.node, tree) node) (hkind : classKind? tree.type = none) :
    node.member? = none ∧ node.class? = none ∧
      List.Forall₂ (Reads source) (parts source (.node, tree)) node.children := by
  obtain ⟨type, named, range, field, children⟩ := tree
  rw [Reads, convert, yields_bind] at h
  obtain ⟨span, hspan, h⟩ := h
  split at h
  · rename_i known hknown
    cases hknown.symm.trans hkind
  · rw [parts, hkind, Option.isSome_none, if_neg Bool.false_ne_true]
    split at h
    · rename_i hinterface
      simp only [yields_bind, yields_pure, yields_liftExcept] at h
      obtain ⟨_, _, bases, hbases, body, hbody, rfl⟩ := h
      rw [if_pos (by exact hinterface)]
      exact ⟨rfl, rfl,
        List.rel_append (forall₂_interfaceBases hbases) (forall₂_interfaceBody hbody)⟩
    · rename_i hinterface
      simp only [yields_bind, yields_pure] at h
      obtain ⟨nodes, hnodes, rfl⟩ := h
      rw [if_neg (by exact hinterface)]
      exact ⟨rfl, rfl, forall₂_convertAll hnodes⟩

def Reading.isMember : Reading → Bool
  | .member .. => true
  | _ => false

theorem Reads.member?_isSome {part : Reading × ParseTree} (h : Reads source part node) :
    node.member?.isSome = part.1.isMember := by
  obtain ⟨reading, tree⟩ := part
  cases reading with
  | file =>
    simp only [Reads, convertRoot, yields_bind, yields_pure] at h
    obtain ⟨_, _, _, _, rfl⟩ := h
    rfl
  | reference =>
    obtain ⟨_, _, _, hrole, _⟩ := reads_reference h
    rw [Node.member?, hrole]
    rfl
  | member docs decorator =>
    obtain ⟨_, _, _, _, _, _, _, _, hrole⟩ := reads_member h
    rw [Node.member?, hrole]
    rfl
  | node =>
    cases hkind : classKind? tree.type with
    | none =>
      rw [(reads_other h hkind).1]
      rfl
    | some kind =>
      obtain ⟨_, _, _, _, _, _, hrole, _⟩ := reads_class h hkind
      rw [Node.member?, hrole]
      rfl

theorem Reads.children {part : Reading × ParseTree} (h : Reads source part node) :
    List.Forall₂ (Reads source) (parts source part) node.children := by
  obtain ⟨reading, tree⟩ := part
  cases reading with
  | file =>
    simp only [Reads, convertRoot, yields_bind, yields_pure] at h
    obtain ⟨_, _, nodes, hnodes, rfl⟩ := h
    exact forall₂_convertAll hnodes
  | node =>
    cases hkind : classKind? tree.type with
    | some kind =>
      obtain ⟨_, found, _, _, hfound, _, _, hchildren⟩ := reads_class h hkind
      rw [parts, hkind, Option.isSome_some, if_pos rfl, hchildren]
      exact forall₂_classParts hfound
    | none => exact (reads_other h hkind).2.2
  | member docs decorator =>
    obtain ⟨_, name, _, _, hname, hnodes, _⟩ := reads_member h
    have hpart : isPart source tree =
        fun child => (isMemberPart source name child).toOption.getD false := by
      funext child
      rw [isPart, hname]
      rfl
    rw [parts, hpart]
    exact forall₂_memberChildren hnodes
  | reference =>
    obtain ⟨_, _, _, _, hnodes⟩ := reads_reference h
    exact forall₂_convertAll hnodes

end Nodes

section Subtrees

mutual

def subtrees : ParseTree → List ParseTree
  | .node type named range field children =>
    .node type named range field children :: subtreesAll children

def subtreesAll : List ParseTree → List ParseTree
  | [] => []
  | tree :: rest => tree.subtrees ++ subtreesAll rest

end

private theorem subtreesAll_eq (trees : List ParseTree) :
    subtreesAll trees = trees.flatMap subtrees := by
  induction trees with
  | nil => rw [subtreesAll, List.flatMap_nil]
  | cons tree rest ih => rw [subtreesAll, ih, List.flatMap_cons]

theorem subtrees_eq (tree : ParseTree) :
    tree.subtrees = tree :: tree.children.flatMap subtrees := by
  obtain ⟨type, named, range, field, children⟩ := tree
  rw [subtrees, subtreesAll_eq]
  rfl

theorem self_mem_subtrees (tree : ParseTree) : tree ∈ tree.subtrees := by
  rw [subtrees_eq]
  exact List.mem_cons_self

theorem mem_subtrees_of_mem_children {tree child below : ParseTree} (hchild : child ∈ tree.children)
    (h : below ∈ child.subtrees) : below ∈ tree.subtrees := by
  rw [subtrees_eq]
  exact List.mem_cons_of_mem _ (List.mem_flatMap.2 ⟨child, hchild, h⟩)

theorem sizeOf_lt_of_mem_children {tree child : ParseTree} (h : child ∈ tree.children) :
    sizeOf child < sizeOf tree := by
  obtain ⟨type, named, range, field, children⟩ := tree
  have := List.sizeOf_lt_of_mem h
  simp only [ParseTree.children, ParseTree.node.sizeOf_spec] at this ⊢
  omega

theorem mem_subtrees_iff {tree other : ParseTree} :
    other ∈ tree.subtrees ↔ other = tree ∨ ∃ child ∈ tree.children, other ∈ child.subtrees := by
  rw [subtrees_eq, List.mem_cons, List.mem_flatMap]

private theorem sizeOf_le_of_mem_subtrees {tree other : ParseTree} (h : other ∈ tree.subtrees) :
    sizeOf other ≤ sizeOf tree := by
  rcases mem_subtrees_iff.1 h with rfl | ⟨child, hchild, h⟩
  · exact Nat.le_refl _
  · have := sizeOf_lt_of_mem_children hchild
    have := sizeOf_le_of_mem_subtrees h
    omega
termination_by sizeOf tree

theorem mem_subtrees_trans {tree other third : ParseTree} (h : other ∈ tree.subtrees)
    (h' : third ∈ other.subtrees) : third ∈ tree.subtrees := by
  rcases mem_subtrees_iff.1 h with rfl | ⟨child, hchild, h⟩
  · exact h'
  · have := sizeOf_lt_of_mem_children hchild
    exact mem_subtrees_of_mem_children hchild (mem_subtrees_trans h h')
termination_by sizeOf tree

end Subtrees

section AllParts

private theorem mem_of_mem_childParts {container : Container} {docs : List DocComment}
    {decorator : Option Nat} {trees : List ParseTree} {part : Reading × ParseTree}
    (h : part ∈ childParts source container docs decorator trees) : part.2 ∈ trees := by
  induction trees generalizing docs decorator with
  | nil => cases h
  | cons child rest ih =>
    rw [childParts] at h
    split at h
    · exact List.mem_cons_of_mem _ (ih h)
    · split at h
      · rcases List.mem_cons.1 h with rfl | h
        · exact List.mem_cons_self
        · exact List.mem_cons_of_mem _ (ih h)
      · split at h
        · exact List.mem_cons_of_mem _ (ih h)
        · rcases List.mem_cons.1 h with rfl | h
          · exact List.mem_cons_self
          · exact List.mem_cons_of_mem _ (ih h)

private theorem mem_subtrees_of_mem_blockParts {container : Container} {block : ParseTree}
    {part : Reading × ParseTree} (h : part ∈ blockParts source container block) :
    part.2 ∈ block.subtrees :=
  mem_subtrees_of_mem_children (mem_of_mem_childParts h) (self_mem_subtrees _)

private theorem mem_subtrees_of_mem_classChildParts {child : ParseTree} {part : Reading × ParseTree}
    (h : part ∈ classChildParts source child) : part.2 ∈ child.subtrees := by
  rw [classChildParts] at h
  split at h
  · rw [List.mem_singleton.1 h]
    exact self_mem_subtrees child
  · split at h
    · obtain ⟨value, hvalue, rfl⟩ := List.mem_map.1 h
      obtain ⟨clause, hclause, hvalue⟩ := List.mem_flatMap.1 hvalue
      exact mem_subtrees_of_mem_children (List.mem_of_mem_filter hclause)
        (mem_subtrees_of_mem_children (List.mem_of_mem_filter hvalue) (self_mem_subtrees value))
    · split at h
      · exact mem_subtrees_of_mem_blockParts h
      · cases h

private theorem exists_child_of_mem_interfaceParts {interface : ParseTree}
    {part : Reading × ParseTree} (h : part ∈ interfaceParts source interface) :
    ∃ child ∈ interface.children, part.2 ∈ child.subtrees := by
  rcases List.mem_append.1 h with h | h
  · obtain ⟨base, hbase, rfl⟩ := List.mem_map.1 h
    obtain ⟨clause, hclause, hbase⟩ := List.mem_flatMap.1 hbase
    exact ⟨clause, List.mem_of_mem_filter hclause,
      mem_subtrees_of_mem_children (List.mem_of_mem_filter hbase) (self_mem_subtrees base)⟩
  · cases hbody : interface.child? "body" with
    | none =>
      rw [hbody] at h
      cases h
    | some body =>
      rw [hbody] at h
      exact ⟨body, List.mem_of_find?_eq_some hbody, mem_subtrees_of_mem_blockParts h⟩

private theorem exists_child_of_mem_parts {whole part : Reading × ParseTree}
    (h : part ∈ parts source whole) : ∃ child ∈ whole.2.children, part.2 ∈ child.subtrees := by
  obtain ⟨reading, tree⟩ := whole
  have hblock (h : part ∈ blockParts source .other tree) :
      ∃ child ∈ tree.children, part.2 ∈ child.subtrees :=
    ⟨part.2, mem_of_mem_childParts h, self_mem_subtrees _⟩
  cases reading with
  | file => exact hblock h
  | reference => exact hblock h
  | member docs decorator =>
    obtain ⟨child, hchild, rfl⟩ := List.mem_map.1 h
    exact ⟨child, List.mem_of_mem_filter hchild, self_mem_subtrees child⟩
  | node =>
    rw [parts] at h
    split at h
    · obtain ⟨child, hchild, h⟩ := List.mem_flatMap.1 h
      exact ⟨child, hchild, mem_subtrees_of_mem_classChildParts h⟩
    · split at h
      · exact exists_child_of_mem_interfaceParts h
      · exact hblock h

theorem mem_subtrees_of_mem_parts {whole part : Reading × ParseTree}
    (h : part ∈ parts source whole) : part.2 ∈ whole.2.subtrees := by
  obtain ⟨child, hchild, h⟩ := exists_child_of_mem_parts h
  exact mem_subtrees_of_mem_children hchild h

private theorem sizeOf_lt_of_mem_parts {whole part : Reading × ParseTree}
    (h : part ∈ parts source whole) :
    sizeOf part.2 < sizeOf whole.2 := by
  obtain ⟨child, hchild, h⟩ := exists_child_of_mem_parts h
  exact Nat.lt_of_le_of_lt (sizeOf_le_of_mem_subtrees h) (sizeOf_lt_of_mem_children hchild)

/-- What holds of a node if it holds of its parts holds of all nodes. -/
theorem parts_induction {motive : Reading × ParseTree → Prop} (source : SourceText)
    (h : ∀ whole, (∀ part ∈ parts source whole, motive part) → motive whole)
    (whole : Reading × ParseTree) : motive whole :=
  h whole fun part _ => parts_induction source h part
termination_by sizeOf whole.2
decreasing_by exact sizeOf_lt_of_mem_parts (by assumption)

/-- Everything that is read below a node, in recursive pre-order. -/
def allParts (source : SourceText) (whole : Reading × ParseTree) : List (Reading × ParseTree) :=
  (parts source whole).attach.flatMap fun part => part.1 :: allParts source part.1
termination_by sizeOf whole.2
decreasing_by exact sizeOf_lt_of_mem_parts part.2

theorem allParts_eq (source : SourceText) (whole : Reading × ParseTree) :
    allParts source whole =
      (parts source whole).flatMap fun part => part :: allParts source part := by
  rw [allParts]
  simp only [List.flatMap_subtype, List.unattach_attach]

/-- The walk meets what is read of the concrete tree, each once and in order. -/
theorem Reads.allParts {whole : Reading × ParseTree} {node : Node} (h : Reads source whole node) :
    List.Forall₂ (Reads source) (allParts source whole) (node.preorder.map (·.node)) := by
  induction whole using parts_induction source generalizing node with
  | h whole ih =>
    have hchildren := h.children
    rw [allParts_eq, Node.preorder_eq, Node.visits, List.flatMap_map, List.map_flatMap]
    generalize parts source whole = found, node.children = children at hchildren ih ⊢
    induction hchildren with
    | nil => exact .nil
    | @cons part child found children hpart _ ihrest =>
      rw [List.flatMap_cons, List.flatMap_cons]
      refine List.rel_append (.cons hpart (ih part List.mem_cons_self hpart)) ?_
      exact ihrest fun later hlater => ih later (List.mem_cons_of_mem _ hlater)

theorem exists_of_mem_right {α β : Type} {R : α → β → Prop} {as : List α} {bs : List β}
    (h : List.Forall₂ R as bs) {b : β} (hmem : b ∈ bs) : ∃ a ∈ as, R a b := by
  induction h with
  | nil => cases hmem
  | @cons a first as bs hfirst _ ih =>
    rcases List.mem_cons.1 hmem with rfl | hmem
    · exact ⟨a, List.mem_cons_self, hfirst⟩
    · obtain ⟨later, hlater, hrel⟩ := ih hmem
      exact ⟨later, List.mem_cons_of_mem _ hlater, hrel⟩

theorem Reads.exists_part {whole : Reading × ParseTree} {node : Node} (h : Reads source whole node)
    {visit : Visit} (hvisit : visit ∈ node.preorder) :
    ∃ part ∈ ParseTree.allParts source whole, Reads source part visit.node :=
  exists_of_mem_right h.allParts (List.mem_map_of_mem hvisit)

end AllParts
end ParseTree
end OverrideLint
