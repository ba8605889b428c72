import OverrideLint.Proofs.ParseTree.Success
import Mathlib.Algebra.Order.Group.Multiset
import Mathlib.Tactic.Abel

/-! Which classes of a concrete tree are reached. A class that is read as a node becomes
one class of the converted tree, with its own heritage and members. A class is hidden
only if it is taken for something else, such as the base type of another class, or if
it stands where nothing is read. -/
namespace OverrideLint

def Node.classNodes (node : Node) : List Node :=
  (node :: node.preorder.map (·.node)).filter (·.class?.isSome)

namespace ParseTree

def isClass (tree : ParseTree) : Bool := tree.named && (classKind? tree.type).isSome

def classes (tree : ParseTree) : List ParseTree := tree.subtrees.filter isClass

section PassedOver

def isSkipped (child : ParseTree) : Bool :=
  child.type == "comment" || child.type != "decorator" && !child.named

def blockSkipped (block : ParseTree) : List ParseTree := block.children.filter isSkipped

def classChildSkipped (child : ParseTree) : List ParseTree :=
  if child.type = "decorator" then []
  else if child.type = "class_heritage" then
    child.children.filter (fun clause => !(heritageToken? clause).isSome) ++
      (clauses child).flatMap fun clause => clause.children.filter (!isClauseValue clause ·)
  else if child.type = "class_body" then blockSkipped child
  else [child]

def interfaceSkipped (interface : ParseTree) : List ParseTree :=
  (interface.children.eraseP (·.field == some "body")).filter (!isBaseClause ·) ++
    (interface.children.filter isBaseClause).flatMap (fun clause =>
      clause.children.filter (!·.named)) ++
    ((interface.child? "body").map blockSkipped).getD []

def passedOver (source : SourceText) : Reading × ParseTree → List ParseTree
  | (.node, tree) =>
    if (classKind? tree.type).isSome then tree.children.flatMap classChildSkipped
    else if tree.type = "interface_declaration" then interfaceSkipped tree
    else blockSkipped tree
  | (.member _ _, tree) => tree.children.filter (!isPart source tree ·)
  | (.file, tree) => blockSkipped tree
  | (.reference, tree) => blockSkipped tree

/-- Why a class is not reached: it is itself taken for something else than a class, or it
stands where nothing is read. -/
inductive Hidden (source : SourceText) : Reading × ParseTree → ParseTree → Prop
  | itself {reading : Reading} {tree : ParseTree} (h : reading ≠ .node) :
    Hidden source (reading, tree) tree
  | skipped {whole : Reading × ParseTree} {skipped tree : ParseTree}
    (hskipped : skipped ∈ passedOver source whole) (h : tree ∈ skipped.subtrees) :
    Hidden source whole tree
  | deeper {whole part : Reading × ParseTree} {tree : ParseTree}
    (hpart : part ∈ parts source whole) (h : Hidden source part tree) : Hidden source whole tree

end PassedOver

section Represents

structure OwnReference (source : SourceText) (value : ParseTree) (reference : TypeReference) :
    Prop where
  name : referenceName source value = .ok reference.name
  span : source.span value = .ok reference.span
  file : reference.file = source.file

structure OwnClause (source : SourceText) (tree : ParseTree) (clause : HeritageClause) : Prop where
  token : heritageToken? tree = some clause.token
  types : List.Forall₂ (OwnReference source) (values tree) clause.types

def OwnHeritage (source : SourceText) : Option ParseTree → Option (List HeritageClause) → Prop :=
  Option.Rel fun heritage found => List.Forall₂ (OwnClause source) (clauses heritage) found

/-- The heritage part of a class; of several ones the last counts. -/
def heritage? (tree : ParseTree) : Option ParseTree :=
  (tree.children.filter (·.type == "class_heritage")).getLast?

def bodyMembers (tree : ParseTree) : List ParseTree :=
  (tree.children.filter (·.type == "class_body")).flatMap fun body =>
    body.children.filter fun child => child.named && Container.classBody.hasMember child.type

/-- The node of a member. It ends where the member ends, and may start at a decorator. -/
structure OwnMember (source : SourceText) (tree : ParseTree) (node : Node) : Prop where
  info : ∃ info, node.member? = some info ∧ memberName? source tree = .ok info.name ∧
    node.kind = memberKind tree info.name
  span : ∃ span, source.span tree = .ok span ∧ node.span.start ≤ span.start ∧
    node.span.stop = span.stop

/-- The node of a class: its kind, its place, its name, its own heritage clauses, and for each
member in its body a child of its own. -/
structure Represents (source : SourceText) (tree : ParseTree) (node : Node) : Prop where
  kind : classKind? tree.type = some node.kind
  span : source.span tree = .ok node.span
  info : ∃ info, node.class? = some info ∧ className? source tree = .ok info.name ∧
    OwnHeritage source tree.heritage? info.heritage
  members : List.Forall₂ (OwnMember source) tree.bodyMembers
    (node.children.filter (·.member?.isSome))

end Represents

variable {source : SourceText}

section Partition

private theorem classes_eq (tree : ParseTree) :
    tree.classes = (if tree.isClass then [tree] else []) ++ tree.children.flatMap classes := by
  have hbelow : (tree.children.flatMap subtrees).filter isClass = tree.children.flatMap classes :=
    List.filter_flatMap ..
  rw [classes, subtrees_eq, List.filter_cons, hbelow]
  split <;> rfl

private theorem classes_of_classKind?_eq_none {tree : ParseTree} (h : classKind? tree.type = none) :
    tree.classes = tree.children.flatMap classes := by
  have hclass : tree.isClass = false := by
    rw [isClass, h, Option.isSome_none, Bool.and_false]
  rw [classes_eq, hclass, if_neg Bool.false_ne_true, List.nil_append]

private theorem perm_classes_filter (p : ParseTree → Bool) (trees : List ParseTree) :
    (trees.flatMap classes).Perm
      ((trees.filter p).flatMap classes ++ (trees.filter (!p ·)).flatMap classes) := by
  rw [← List.flatMap_append]
  exact (List.filter_append_perm p trees).symm.flatMap_right classes

private theorem perm_flatMap_append {α : Type} {trees : List α} {f g h : α → List ParseTree}
    (hperm : ∀ tree ∈ trees, (f tree).Perm (g tree ++ h tree)) :
    (trees.flatMap f).Perm (trees.flatMap g ++ trees.flatMap h) :=
  (List.Perm.flatMap_left trees hperm).trans (List.flatMap_append_perm trees g h).symm

private theorem map_snd_childParts (container : Container) (docs : List DocComment)
    (decorator : Option Nat) (trees : List ParseTree) :
    (childParts source container docs decorator trees).map (·.2) =
      trees.filter (!isSkipped ·) := by
  induction trees generalizing docs decorator with
  | nil => rfl
  | cons child rest ih =>
    rw [childParts, List.filter_cons, isSkipped]
    split
    · rename_i hcomment
      rw [ih, hcomment]
      rfl
    · rename_i hcomment
      rw [beq_false_of_ne hcomment, Bool.false_or]
      split
      · rename_i hdecorator
        rw [List.map_cons, ih, hdecorator]
        rfl
      · rename_i hdecorator
        rw [bne_iff_ne.2 hdecorator, Bool.true_and]
        split
        · rename_i htoken
          rw [ih, htoken]
          rfl
        · rename_i htoken
          rw [List.map_cons, ih, Bool.eq_false_iff.2 htoken]
          rfl

private theorem perm_classes_block (source : SourceText) (container : Container)
    (block : ParseTree) :
    (block.children.flatMap classes).Perm
      ((blockParts source container block).flatMap (·.2.classes) ++
        (blockSkipped block).flatMap classes) := by
  have hparts : (blockParts source container block).flatMap (·.2.classes) =
      (block.children.filter (!isSkipped ·)).flatMap classes := by
    rw [← map_snd_childParts container [] none, List.flatMap_map]
    rfl
  rw [hparts]
  exact (perm_classes_filter isSkipped block.children).trans List.perm_append_comm

private theorem classKind?_of_heritageToken? {tree : ParseTree}
    (h : (heritageToken? tree).isSome = true) :
    classKind? tree.type = none := by
  unfold heritageToken? at h
  split at h
  · cases h
  · split at h
    · rename_i htype
      rw [htype]
      rfl
    · split at h
      · rename_i htype
        rw [htype]
        rfl
      · cases h

private theorem perm_classes_heritage {heritage : ParseTree}
    (h : heritage.type = "class_heritage") :
    heritage.classes.Perm
      ((((clauses heritage).flatMap values).map (Reading.reference, ·)).flatMap (·.2.classes) ++
        (heritage.children.filter (fun clause => !(heritageToken? clause).isSome) ++
          (clauses heritage).flatMap fun clause =>
            clause.children.filter (!isClauseValue clause ·)).flatMap classes) := by
  have hclauses : ((clauses heritage).flatMap classes).Perm
      (((clauses heritage).flatMap values).flatMap classes ++
        ((clauses heritage).flatMap fun clause =>
          clause.children.filter (!isClauseValue clause ·)).flatMap classes) := by
    rw [List.flatMap_assoc, List.flatMap_assoc]
    apply perm_flatMap_append
    intro clause hclause
    rw [classes_of_classKind?_eq_none (classKind?_of_heritageToken? (List.mem_filter.1 hclause).2)]
    exact perm_classes_filter (isClauseValue clause) clause.children
  rw [classes_of_classKind?_eq_none (by rw [h]; rfl), List.flatMap_map, List.flatMap_append]
  refine (perm_classes_filter _ _).trans ((hclauses.append_right _).trans ?_)
  rw [List.append_assoc]
  exact List.perm_append_comm.append_left _

private theorem perm_classes_classChild (child : ParseTree) :
    child.classes.Perm ((classChildParts source child).flatMap (·.2.classes) ++
      (classChildSkipped child).flatMap classes) := by
  rw [classChildParts, classChildSkipped]
  split
  · rw [List.flatMap_singleton, List.flatMap_nil, List.append_nil]
  · split
    · rename_i hheritage
      exact perm_classes_heritage hheritage
    · split
      · rename_i hbody
        rw [classes_of_classKind?_eq_none (by rw [hbody]; rfl)]
        exact perm_classes_block source .classBody child
      · rw [List.flatMap_nil, List.nil_append, List.flatMap_singleton]

def PlainBody (tree : ParseTree) : Prop :=
  tree.type = "interface_declaration" → ∀ body, tree.child? "body" = some body →
    isBaseClause body = false ∧ classKind? body.type = none

instance (tree : ParseTree) : Decidable tree.PlainBody :=
  inferInstanceAs (Decidable (_ → ∀ body ∈ tree.child? "body", _))

private theorem perm_classes_bases (trees : List ParseTree) :
    ((trees.filter isBaseClause).flatMap classes).Perm
      (((trees.filter isBaseClause).flatMap namedChildren).flatMap classes ++
        ((trees.filter isBaseClause).flatMap fun clause =>
          clause.children.filter (!·.named)).flatMap classes) := by
  rw [List.flatMap_assoc, List.flatMap_assoc]
  apply perm_flatMap_append
  intro clause hclause
  have htype : clause.type = "extends_type_clause" := by
    have := (List.mem_filter.1 hclause).2
    rw [isBaseClause, Bool.and_eq_true, decide_eq_true_eq] at this
    exact this.2
  rw [classes_of_classKind?_eq_none (by rw [htype]; rfl)]
  exact perm_classes_filter named clause.children

private theorem perm_regroup {α : Type} (a b c d e : List α) :
    ((a ++ b) ++ ((c ++ d) ++ e)).Perm ((c ++ a) ++ ((e ++ d) ++ b)) := by
  rw [← Multiset.coe_eq_coe]
  simp only [← Multiset.coe_add]
  abel

private theorem perm_classes_interface {interface : ParseTree}
    (htype : interface.type = "interface_declaration") (hplain : interface.PlainBody) :
    (interface.children.flatMap classes).Perm
      ((interfaceParts source interface).flatMap (·.2.classes) ++
        (interfaceSkipped interface).flatMap classes) := by
  rw [interfaceParts, interfaceSkipped, List.flatMap_append, List.flatMap_map, List.flatMap_append,
    List.flatMap_append]
  have hbases := perm_classes_bases interface.children
  cases hbody : interface.child? "body" with
  | none =>
    have hnone : ∀ child ∈ interface.children, ¬ (child.field == some "body") = true :=
      List.find?_eq_none.1 hbody
    rw [List.eraseP_of_forall_not hnone]
    refine (perm_classes_filter isBaseClause _).trans ((hbases.append_right _).trans ?_)
    simp only [Option.map_none, Option.getD_none, List.flatMap_nil, List.append_nil,
      List.append_assoc]
    exact List.perm_append_comm.append_left _
  | some body =>
    obtain ⟨hclause, hkind⟩ := hplain htype body hbody
    obtain ⟨before, after, hchildren, herased⟩ :
        ∃ before after, interface.children = before ++ body :: after ∧
          interface.children.eraseP (·.field == some "body") = before ++ after := by
      obtain ⟨hfield, before, after, hchildren, hbefore⟩ := List.find?_eq_some_iff_append.1 hbody
      refine ⟨before, after, hchildren, ?_⟩
      rw [hchildren, List.eraseP_append_right _ fun child hmem => by simpa using hbefore child hmem,
        List.eraseP_cons_of_pos (by exact hfield)]
    have hsplit : (interface.children.flatMap classes).Perm
        (body.classes ++ (before ++ after).flatMap classes) := by
      rw [hchildren, ← List.flatMap_cons]
      exact List.perm_middle.flatMap_right classes
    have hsame : (before ++ after).filter isBaseClause = interface.children.filter isBaseClause := by
      rw [hchildren, List.filter_append, List.filter_append,
        List.filter_cons_of_neg (by rw [hclause]; exact Bool.false_ne_true)]
    rw [herased, Option.map_some, Option.getD_some, Option.map_some, Option.getD_some]
    refine hsplit.trans ?_
    rw [classes_of_classKind?_eq_none hkind]
    have hrest := perm_classes_filter isBaseClause (before ++ after)
    rw [hsame] at hrest
    have hblock := perm_classes_block source .other body
    exact (hblock.append (hrest.trans (hbases.append_right _))).trans (perm_regroup ..)

/-- The classes below a node are those in its parts and those in what is passed over. -/
theorem perm_classes_parts {whole : Reading × ParseTree} (hplain : whole.2.PlainBody) :
    (whole.2.children.flatMap classes).Perm
      ((parts source whole).flatMap (·.2.classes) ++ (passedOver source whole).flatMap classes) := by
  obtain ⟨reading, tree⟩ := whole
  cases reading with
  | file => exact perm_classes_block source .other tree
  | reference => exact perm_classes_block source .other tree
  | member docs decorator =>
    rw [parts, passedOver, List.flatMap_map]
    exact perm_classes_filter (isPart source tree) tree.children
  | node =>
    rw [parts, passedOver]
    split
    · rw [List.flatMap_assoc, List.flatMap_assoc]
      exact perm_flatMap_append fun child _ => perm_classes_classChild child
    · split
      · rename_i hinterface
        exact perm_classes_interface hinterface hplain
      · exact perm_classes_block source .other tree

end Partition

section Heritage

private theorem ownReference_of_reads {value : ParseTree} {node : Node}
    (h : Reads source (.reference, value) node) :
    ∃ reference, node.reference? = some reference ∧ OwnReference source value reference := by
  obtain ⟨name, hspan, hname, hrole, _⟩ := reads_reference h
  refine ⟨⟨name, node.span, source.file⟩, ?_, hname, hspan, rfl⟩
  rw [Node.reference?, hrole]

private theorem forall₂_ownReference {trees : List ParseTree} {nodes : List Node}
    (h : List.Forall₂ (Reads source) (trees.map (.reference, ·)) nodes) :
    List.Forall₂ (OwnReference source) trees (nodes.filterMap Node.reference?) := by
  rw [List.forall₂_map_left_iff] at h
  induction h with
  | nil => exact .nil
  | cons hfirst _ ih =>
    obtain ⟨reference, hreference, hown⟩ := ownReference_of_reads hfirst
    rw [List.filterMap_cons_some hreference]
    exact .cons hown ih

theorem ReadsClause.own {tree : ParseTree} {clause : ClauseNodes}
    (h : ReadsClause source tree clause) : OwnClause source tree clause.clause :=
  ⟨h.token, forall₂_ownReference h.nodes⟩

private theorem heritage_of_classPart {tree : ParseTree} {found : ClassParts}
    (h : Yields (classPart source tree) found) :
    OwnHeritage source (if tree.type = "class_heritage" then some tree else none)
      found.heritage := by
  obtain ⟨type, named, range, field, children⟩ := tree
  rw [classPart] at h
  split at h
  · rename_i hheritage
    simp only [yields_bind, yields_pure] at h
    obtain ⟨clauses, hclauses, rfl⟩ := h
    rw [if_pos (by exact hheritage)]
    refine .some (List.forall₂_map_right_iff.2 ?_)
    exact (forall₂_heritageClauses hclauses).imp fun _ _ hclause => hclause.own
  · rename_i hheritage
    rw [if_neg (by exact hheritage)]
    split at h
    · simp only [yields_bind, yields_pure, yields_liftExcept] at h
      obtain ⟨_, _, _, _, rfl⟩ := h
      exact .none
    · rw [yields_pure] at h
      exact h ▸ .none

theorem OwnHeritage.or {first later : Option ParseTree}
    {heritage heritage' : Option (List HeritageClause)}
    (h : OwnHeritage source first heritage) (h' : OwnHeritage source later heritage') :
    OwnHeritage source (later.or first) (heritage'.or heritage) := by
  cases h' with
  | none => exact h
  | some hlater => exact .some hlater

private theorem getLast?_filter_cons {α : Type} (p : α → Bool) (first : α) (rest : List α) :
    ((first :: rest).filter p).getLast? =
      (rest.filter p).getLast?.or (if p first = true then some first else none) := by
  rw [List.filter_cons]
  split
  · rw [List.getLast?_cons]
    cases (rest.filter p).getLast? <;> rfl
  · rw [Option.or_none]

private theorem heritage_of_classParts {trees : List ParseTree} {found : ClassParts}
    (h : Yields (classParts source trees) found) :
    OwnHeritage source (trees.filter (·.type == "class_heritage")).getLast? found.heritage := by
  induction trees generalizing found with
  | nil =>
    rw [classParts, yields_pure] at h
    exact h ▸ .none
  | cons child rest ih =>
    rw [classParts] at h
    rw [getLast?_filter_cons]
    simp only [beq_iff_eq]
    split at h
    · rename_i hdecorator
      simp only [yields_bind, yields_pure] at h
      obtain ⟨first, _, others, hothers, rfl⟩ := h
      rw [if_neg (by rw [hdecorator]; decide)]
      exact OwnHeritage.or .none (ih hothers)
    · simp only [yields_bind, yields_pure] at h
      obtain ⟨first, hfirst, others, hothers, rfl⟩ := h
      exact (heritage_of_classPart hfirst).or (ih hothers)

end Heritage

section Members

private theorem ownMember_of_reads {part : Reading × ParseTree} {node : Node}
    (h : Reads source part node)
    (hmember : part.1.isMember = true) : OwnMember source part.2 node := by
  obtain ⟨reading, tree⟩ := part
  cases reading with
  | file => cases hmember
  | node => cases hmember
  | reference => cases hmember
  | member docs decorator =>
    obtain ⟨span, name, modifiers, hspan, hname, _, hkind, hnode, hrole⟩ := reads_member h
    refine ⟨⟨⟨name, modifiers, docs⟩, ?_, hname, hkind⟩, span, hspan, ?_⟩
    · rw [Node.member?, hrole]
    · rw [hnode]
      unfold memberSpan
      split
      · split
        · rename_i hlt
          exact ⟨Nat.le_of_lt hlt, rfl⟩
        · exact ⟨Nat.le_refl _, rfl⟩
      · exact ⟨Nat.le_refl _, rfl⟩

private theorem members_childParts (docs : List DocComment) (decorator : Option Nat)
    (trees : List ParseTree) :
    ((childParts source .classBody docs decorator trees).filter (·.1.isMember)).map (·.2) =
      trees.filter fun child => child.named && Container.classBody.hasMember child.type := by
  induction trees generalizing docs decorator with
  | nil => rfl
  | cons child rest ih =>
    rw [childParts, List.filter_cons]
    split
    · rename_i hcomment
      have hother : Container.classBody.hasMember "comment" = false := by decide
      rw [ih, hcomment, hother, Bool.and_false, if_neg Bool.false_ne_true]
    · split
      · rename_i hdecorator
        have hother : Container.classBody.hasMember "decorator" = false := by decide
        rw [List.filter_cons_of_neg (by exact Bool.false_ne_true), ih, hdecorator, hother,
          Bool.and_false, if_neg Bool.false_ne_true]
      · split
        · rename_i htoken
          rw [Bool.not_eq_true'] at htoken
          rw [ih, htoken, Bool.false_and, if_neg Bool.false_ne_true]
        · rename_i htoken
          rw [Bool.not_eq_true, Bool.not_eq_false'] at htoken
          rw [htoken, Bool.true_and]
          cases hmember : Container.classBody.hasMember child.type with
          | true =>
            rw [if_pos rfl, if_pos rfl, List.filter_cons_of_pos (by rfl), List.map_cons, ih]
          | false =>
            rw [if_neg Bool.false_ne_true, if_neg Bool.false_ne_true,
              List.filter_cons_of_neg (by exact Bool.false_ne_true), ih]

private theorem members_classChildParts (child : ParseTree) :
    ((classChildParts source child).filter (·.1.isMember)).map (·.2) =
      if child.type == "class_body" then
        child.children.filter fun member =>
          member.named && Container.classBody.hasMember member.type
      else [] := by
  rw [classChildParts]
  split
  · rename_i hdecorator
    rw [hdecorator]
    rfl
  · split
    · rename_i hheritage
      have hnone : (((clauses child).flatMap values).map (Reading.reference, ·)).filter
          (·.1.isMember) = [] := by
        apply List.filter_eq_nil_iff.2
        intro part hpart
        obtain ⟨_, _, rfl⟩ := List.mem_map.1 hpart
        exact Bool.false_ne_true
      rw [hnone, hheritage]
      rfl
    · split
      · rename_i hbody
        rw [blockParts, members_childParts, hbody]
        rfl
      · rename_i hbody
        rw [if_neg (by simpa using hbody)]
        rfl

private theorem members_classParts (source : SourceText) (trees : List ParseTree) :
    ((trees.flatMap (classChildParts source)).filter (·.1.isMember)).map (·.2) =
      (trees.filter (·.type == "class_body")).flatMap fun body =>
        body.children.filter fun child =>
          child.named && Container.classBody.hasMember child.type := by
  induction trees with
  | nil => rfl
  | cons child rest ih =>
    rw [List.flatMap_cons, List.filter_append, List.map_append, ih, members_classChildParts,
      List.filter_cons]
    split
    · rw [List.flatMap_cons]
    · rw [List.nil_append]

end Members

section Reached

variable {tree : ParseTree} {node : Node}

private theorem forall₂_ownMember {found : List (Reading × ParseTree)} {nodes : List Node}
    (h : List.Forall₂ (Reads source) found nodes) :
    List.Forall₂ (OwnMember source) ((found.filter (·.1.isMember)).map (·.2))
      (nodes.filter (·.member?.isSome)) := by
  induction h with
  | nil => exact .nil
  | cons hfirst _ ih =>
    rw [List.filter_cons, List.filter_cons, hfirst.member?_isSome]
    split
    · rename_i hmember
      exact .cons (ownMember_of_reads hfirst hmember) ih
    · exact ih

private theorem represents_of_reads {kind : Kind} (h : Reads source (.node, tree) node)
    (hkind : classKind? tree.type = some kind) : Represents source tree node := by
  obtain ⟨name, found, hspan, hname, hfound, hnode, hrole, hchildren⟩ := reads_class h hkind
  refine ⟨hnode ▸ hkind, hspan, ⟨⟨name, found.heritage, found.properties.getD []⟩, ?_, hname,
    heritage_of_classParts hfound⟩, ?_⟩
  · rw [Node.class?, hrole]
  · rw [hchildren, bodyMembers, ← members_classParts source]
    exact forall₂_ownMember (forall₂_classParts hfound)

theorem Reads.class?_eq_none {part : Reading × ParseTree} (h : Reads source part node)
    (hother : part.1 = .node → classKind? part.2.type = none) : node.class? = none := by
  obtain ⟨reading, tree⟩ := part
  cases reading with
  | file =>
    simp only [Reads, convertRoot, yields_bind, yields_pure] at h
    obtain ⟨_, _, _, _, rfl⟩ := h
    rfl
  | node => exact (reads_other h (hother rfl)).2.1
  | member docs decorator =>
    obtain ⟨_, _, _, _, _, _, _, _, hrole⟩ := reads_member h
    rw [Node.class?, hrole]
  | reference =>
    obtain ⟨_, _, _, hrole, _⟩ := reads_reference h
    rw [Node.class?, hrole]

private theorem named_of_mem_childParts {container : Container} {docs : List DocComment}
    {decorator : Option Nat} {trees : List ParseTree} {part : Reading × ParseTree}
    (h : part ∈ childParts source container docs decorator trees)
    (hkind : (classKind? part.2.type).isSome = true) : part.2.named = true := by
  induction trees generalizing docs decorator with
  | nil => cases h
  | cons child rest ih =>
    rw [childParts] at h
    split at h
    · exact ih h
    · split at h
      · rename_i hdecorator
        rcases List.mem_cons.1 h with rfl | h
        · rw [hdecorator] at hkind
          cases hkind
        · exact ih h
      · split at h
        · exact ih h
        · rename_i htoken
          rcases List.mem_cons.1 h with rfl | h
          · simpa using htoken
          · exact ih h

private theorem named_of_isPart {member child : ParseTree} (h : isPart source member child = true) :
    child.named = true := by
  cases hnamed : child.named with
  | true => rfl
  | false =>
    have hnever (name : Option MemberName) : isMemberPart source name child = .ok false := by
      unfold isMemberPart
      rw [hnamed]
      rfl
    rw [isPart] at h
    cases hname : (memberName? source member).toOption with
    | none =>
      rw [hname] at h
      cases h
    | some name =>
      rw [hname, Option.bind_some, hnever] at h
      cases h

private theorem isClass_of_mem_parts {whole part : Reading × ParseTree}
    (h : part ∈ parts source whole)
    (hreading : part.1 = .node) (hkind : (classKind? part.2.type).isSome = true) :
    part.2.isClass = true := by
  rw [isClass, hkind, Bool.and_true]
  obtain ⟨reading, tree⟩ := whole
  cases reading with
  | file => exact named_of_mem_childParts h hkind
  | reference => exact named_of_mem_childParts h hkind
  | member docs decorator =>
    obtain ⟨child, hchild, rfl⟩ := List.mem_map.1 h
    exact named_of_isPart (List.mem_filter.1 hchild).2
  | node =>
    rw [parts] at h
    split at h
    · obtain ⟨child, _, h⟩ := List.mem_flatMap.1 h
      rw [classChildParts] at h
      split at h
      · rename_i hdecorator
        rw [List.mem_singleton.1 h] at hkind
        dsimp only at hkind
        rw [hdecorator] at hkind
        cases hkind
      · split at h
        · obtain ⟨_, _, rfl⟩ := List.mem_map.1 h
          cases hreading
        · split at h
          · exact named_of_mem_childParts h hkind
          · cases h
    · split at h
      · rcases List.mem_append.1 h with h | h
        · obtain ⟨_, _, rfl⟩ := List.mem_map.1 h
          cases hreading
        · cases hbody : tree.child? "body" with
          | none =>
            rw [hbody] at h
            cases h
          | some body =>
            rw [hbody] at h
            exact named_of_mem_childParts h hkind
      · exact named_of_mem_childParts h hkind

private theorem classNodes_eq (node : Node) :
    node.classNodes =
      (if node.class?.isSome then [node] else []) ++ node.children.flatMap Node.classNodes := by
  have hbelow : (node.preorder.map (·.node)).filter (·.class?.isSome) =
      node.children.flatMap Node.classNodes := by
    rw [Node.preorder_eq, Node.visits, List.flatMap_map, List.map_flatMap, List.filter_flatMap]
    rfl
  rw [Node.classNodes, List.filter_cons, hbelow]
  split <;> rfl

/-- Classes divide into those that nodes represent, each node one class and in order, and
those that are hidden. -/
def Accounted (source : SourceText) (classes : List ParseTree) (nodes : List Node)
    (hidden : ParseTree → Prop) : Prop :=
  ∃ seen missed, classes.Perm (seen ++ missed) ∧ List.Forall₂ (Represents source) seen nodes ∧
    ∀ tree ∈ missed, hidden tree

namespace Accounted

variable {classes others : List ParseTree} {nodes later : List Node} {hidden : ParseTree → Prop}

theorem append (h : Accounted source classes nodes hidden)
    (h' : Accounted source others later hidden) :
    Accounted source (classes ++ others) (nodes ++ later) hidden := by
  obtain ⟨seen, missed, hperm, hseen, hmissed⟩ := h
  obtain ⟨seen', missed', hperm', hseen', hmissed'⟩ := h'
  refine ⟨seen ++ seen', missed ++ missed', ?_, List.rel_append hseen hseen', ?_⟩
  · refine (hperm.append hperm').trans ?_
    rw [List.append_assoc, List.append_assoc]
    refine List.Perm.append_left seen ?_
    rw [← List.append_assoc, ← List.append_assoc]
    exact List.perm_append_comm.append_right missed'
  · intro tree hmem
    rcases List.mem_append.1 hmem with hmem | hmem
    · exact hmissed tree hmem
    · exact hmissed' tree hmem

theorem of_perm (h : Accounted source classes nodes hidden) (hperm : others.Perm classes) :
    Accounted source others nodes hidden := by
  obtain ⟨seen, missed, hperm', hrest⟩ := h
  exact ⟨seen, missed, hperm.trans hperm', hrest⟩

theorem mono {hidden' : ParseTree → Prop} (h : Accounted source classes nodes hidden)
    (himp : ∀ tree, hidden tree → hidden' tree) : Accounted source classes nodes hidden' := by
  obtain ⟨seen, missed, hperm, hseen, hmissed⟩ := h
  exact ⟨seen, missed, hperm, hseen, fun tree hmem => himp tree (hmissed tree hmem)⟩

theorem of_hidden (h : ∀ tree ∈ classes, hidden tree) : Accounted source classes [] hidden :=
  ⟨[], classes, List.Perm.refl _, .nil, h⟩

private theorem of_represents (h : Represents source tree node) :
    Accounted source [tree] [node] hidden :=
  ⟨[tree], [], List.Perm.refl _, .cons h .nil, nofun⟩

theorem flatMap {found : List (Reading × ParseTree)}
    (hreads : List.Forall₂ (Reads source) found nodes)
    (h : ∀ part ∈ found, ∀ node, Reads source part node →
      Accounted source part.2.classes node.classNodes hidden) :
    Accounted source (found.flatMap (·.2.classes)) (nodes.flatMap Node.classNodes) hidden := by
  induction hreads with
  | nil => exact of_hidden nofun
  | cons hfirst _ ih =>
    rw [List.flatMap_cons, List.flatMap_cons]
    exact (h _ List.mem_cons_self _ hfirst).append
      (ih fun part hpart => h part (List.mem_cons_of_mem _ hpart))

end Accounted

private theorem accounted_itself {whole : Reading × ParseTree} (h : Reads source whole node)
    (hclass : whole.1 = .node → (classKind? whole.2.type).isSome = true →
      whole.2.isClass = true) :
    Accounted source (if whole.2.isClass then [whole.2] else [])
      (if node.class?.isSome then [node] else []) (Hidden source whole) := by
  obtain ⟨reading, tree⟩ := whole
  by_cases hnode : reading = .node ∧ (classKind? tree.type).isSome = true
  · obtain ⟨rfl, hkind⟩ := hnode
    obtain ⟨kind, hkind'⟩ := Option.isSome_iff_exists.1 hkind
    have hrepresents := represents_of_reads h hkind'
    obtain ⟨info, hinfo, _⟩ := hrepresents.info
    rw [if_pos (hclass rfl hkind), hinfo, Option.isSome_some, if_pos rfl]
    exact .of_represents hrepresents
  · have hnone : node.class? = none := by
      apply h.class?_eq_none
      rintro rfl
      simpa using hnode
    rw [hnone, Option.isSome_none, if_neg Bool.false_ne_true]
    apply Accounted.of_hidden
    intro other hother
    split at hother
    · rename_i his
      rw [List.mem_singleton.1 hother]
      refine .itself ?_
      rintro rfl
      rw [isClass, Bool.and_eq_true] at his
      exact hnode ⟨rfl, his.2⟩
    · cases hother

private theorem accounted_of_reads {whole : Reading × ParseTree} (h : Reads source whole node)
    (hplain : ∀ tree ∈ whole.2.subtrees, tree.PlainBody)
    (hclass : whole.1 = .node → (classKind? whole.2.type).isSome = true →
      whole.2.isClass = true) :
    Accounted source whole.2.classes node.classNodes (Hidden source whole) := by
  induction whole using parts_induction source generalizing node with
  | h whole ih =>
    have hparts : Accounted source ((parts source whole).flatMap (·.2.classes))
        (node.children.flatMap Node.classNodes) (Hidden source whole) := by
      refine .flatMap h.children fun part hpart node hread => ?_
      refine (ih part hpart hread ?_ ?_).mono fun tree => .deeper hpart
      · exact fun tree htree => hplain tree
          (mem_subtrees_trans (mem_subtrees_of_mem_parts hpart) htree)
      · exact isClass_of_mem_parts hpart
    have hskipped : Accounted source ((passedOver source whole).flatMap classes) []
        (Hidden source whole) := by
      apply Accounted.of_hidden
      intro tree htree
      obtain ⟨skipped, hmem, htree⟩ := List.mem_flatMap.1 htree
      exact .skipped hmem (List.mem_of_mem_filter htree)
    rw [classNodes_eq, classes_eq, ← List.append_nil (node.children.flatMap _)]
    refine (accounted_itself h hclass).append ((hparts.append hskipped).of_perm ?_)
    exact perm_classes_parts (hplain whole.2 (self_mem_subtrees _))

/-- A tree whose ranges fit the text is converted, and each class in it, at any depth, is one
class of the walk with its own heritage clauses and its own members as children, unless it
is hidden: taken for something else than a class, or where nothing is read. -/
theorem classes_reached {root : ParseTree} (hfits : FitsThroughout source root)
    (hplain : ∀ tree ∈ root.subtrees, tree.PlainBody) :
    ∃ node, Yields (convertRoot source root) node ∧
      Accounted source root.classes
        ((node.descendants.map (·.node)).filter (·.class?.isSome))
        (Hidden source (.file, root)) := by
  obtain ⟨node, hnode⟩ := readable_of_fits (.file, root) hfits
  refine ⟨node, hnode, ?_⟩
  have hnone : node.class? = none := hnode.class?_eq_none nofun
  have haccounted := accounted_of_reads hnode hplain nofun
  rw [Node.classNodes,
    List.filter_cons_of_neg (by rw [hnone]; exact Bool.false_ne_true)] at haccounted
  rw [Node.descendants_eq]
  exact haccounted

def nestedText : Text := "class D extends class Inner \x7b m() \x7b\x7d \x7d \x7b\x7d".toList

def leaf (type : String) (named : Bool) (start stop : Int) (field : Option String) : ParseTree :=
  .node type named ⟨start, stop⟩ field []

def nestedInner : ParseTree :=
  .node "class" true ⟨16, 38⟩ (some "value")
    [leaf "class" false 16 21 none, leaf "type_identifier" true 22 27 (some "name"),
      .node "class_body" true ⟨28, 38⟩ (some "body")
        [leaf "\x7b" false 28 29 none,
          .node "method_definition" true ⟨30, 36⟩ none
            [leaf "property_identifier" true 30 31 (some "name"),
              .node "formal_parameters" true ⟨31, 33⟩ (some "parameters")
                [leaf "(" false 31 32 none, leaf ")" false 32 33 none],
              .node "statement_block" true ⟨34, 36⟩ (some "body")
                [leaf "\x7b" false 34 35 none, leaf "\x7d" false 35 36 none]],
          leaf "\x7d" false 37 38 none]]

def nestedOuter : ParseTree :=
  .node "class_declaration" true ⟨0, 41⟩ none
    [leaf "class" false 0 5 none, leaf "type_identifier" true 6 7 (some "name"),
      .node "class_heritage" true ⟨8, 38⟩ none
        [.node "extends_clause" true ⟨8, 38⟩ none
          [leaf "extends" false 8 15 none, nestedInner]],
      .node "class_body" true ⟨39, 41⟩ (some "body")
        [leaf "\x7b" false 39 40 none, leaf "\x7d" false 40 41 none]]

def nestedTree : ParseTree := .node "program" true ⟨0, 41⟩ none [nestedOuter]

def followedText : Text := nestedText ++ " interface I extends J \x7b m(): void \x7d".toList

def followedTree : ParseTree :=
  .node "program" true ⟨0, 77⟩ none
    [nestedOuter,
      .node "interface_declaration" true ⟨42, 77⟩ none
        [leaf "interface" false 42 51 none, leaf "type_identifier" true 52 53 (some "name"),
          .node "extends_type_clause" true ⟨54, 63⟩ none
            [leaf "extends" false 54 61 none, leaf "type_identifier" true 62 63 (some "type")],
          .node "interface_body" true ⟨64, 77⟩ (some "body")
            [leaf "\x7b" false 64 65 none,
              .node "method_signature" true ⟨66, 75⟩ none
                [leaf "property_identifier" true 66 67 (some "name"),
                  leaf "formal_parameters" true 67 69 (some "parameters"),
                  leaf "type_annotation" true 69 75 (some "return_type")],
              leaf "\x7d" false 76 77 none]]]

theorem classes_reached_nested :
    FitsThroughout (.ofText "nested.ts" followedText) followedTree ∧
      (∀ tree ∈ followedTree.subtrees, tree.PlainBody) ∧
      (followedTree.subtrees.filter (·.type == "interface_declaration")).map
        (fun tree => (tree.child? "body").map type) = [some "interface_body"] ∧
      ∃ node, Yields (convertRoot (.ofText "nested.ts" followedText) followedTree) node ∧
        Accounted (.ofText "nested.ts" followedText) followedTree.classes
          ((node.descendants.map (·.node)).filter (·.class?.isSome))
          (Hidden (.ofText "nested.ts" followedText) (.file, followedTree)) := by
  have hfits : FitsThroughout (.ofText "nested.ts" followedText) followedTree := by decide +kernel
  have hplain : ∀ tree ∈ followedTree.subtrees, tree.PlainBody := by decide +kernel
  exact ⟨hfits, hplain, by decide +kernel, classes_reached hfits hplain⟩

/-- A class that is itself the base of another class is not reached: of two classes the walk
meets one. -/
theorem base_class_not_reached :
    nestedTree.classes.length = 2 ∧
      ∃ node, Yields (convertRoot (.ofText "nested.ts" nestedText) nestedTree) node ∧
        ((node.descendants.map (·.node)).filter (·.class?.isSome)).length = 1 := by
  have hcount : (convertRoot (.ofText "nested.ts" nestedText) nestedTree).run.value.map
      (fun node => ((node.descendants.map (·.node)).filter (·.class?.isSome)).length) = .ok 1 := by
    decide +kernel
  refine ⟨by decide +kernel, ?_⟩
  unfold Yields
  generalize (convertRoot (.ofText "nested.ts" nestedText) nestedTree).run.value = result at hcount
  cases result with
  | error error => cases hcount
  | ok node => exact ⟨node, rfl, Except.ok.inj hcount⟩

end Reached
end ParseTree
end OverrideLint
