import Mathlib.Data.List.Pairwise
import OverrideLint.Proofs.ParseTree.Attachment
import OverrideLint.Proofs.ParseTree.Ranges

/-! What a tree with nested and ordered ranges is converted to. Every node lies within its
parent. No comment is attached twice: what is read below the nodes of a row stays apart if
the nodes do, and the comments that wait in a row wait between its nodes. -/
namespace OverrideLint.ParseTree

variable {source : SourceText}

section Spans

private theorem memberSpan_stop (span : Span) (decorator : Option Nat) :
    (memberSpan span decorator).stop = span.stop := by
  unfold memberSpan
  split
  · split
    · rfl
    · rfl
  · rfl

private theorem memberSpan_start_le (span : Span) (decorator : Option Nat) :
    (memberSpan span decorator).start ≤ span.start := by
  unfold memberSpan
  split
  · split
    · dsimp only
      omega
    · exact Nat.le_refl _
  · exact Nat.le_refl _

private theorem le_memberSpan_start {span : Span} {decorator : Option Nat} {bound : Nat}
    (hspan : bound ≤ span.start) (hdecorator : ∀ start, decorator = some start → bound ≤ start) :
    bound ≤ (memberSpan span decorator).start := by
  unfold memberSpan
  split
  · rename_i start
    split
    · exact hdecorator start rfl
    · exact hspan
  · exact hspan

def Reading.span : Reading → Span → Span
  | .member _ decorator, span => memberSpan span decorator
  | _, span => span

theorem Reading.contains_span (reading : Reading) (span : Span) :
    (reading.span span).start ≤ span.start ∧ (reading.span span).stop = span.stop := by
  cases reading with
  | member docs decorator =>
    exact ⟨memberSpan_start_le span decorator, memberSpan_stop span decorator⟩
  | _ => exact ⟨Nat.le_refl _, rfl⟩

private theorem span_of_convert {tree : ParseTree} {node : Node}
    (h : Reads source (.node, tree) node) :
    source.span tree = .ok node.span := by
  obtain ⟨type, named, range, field, children⟩ := tree
  rw [Reads, convert, yields_bind] at h
  obtain ⟨span, hspan, h⟩ := h
  rw [yields_liftExcept] at hspan
  split at h
  · simp only [yields_bind, yields_pure] at h
    obtain ⟨_, _, _, _, rfl⟩ := h
    exact hspan
  · split at h
    · simp only [yields_bind, yields_pure] at h
      obtain ⟨_, _, _, _, _, _, rfl⟩ := h
      exact hspan
    · simp only [yields_bind, yields_pure] at h
      obtain ⟨_, _, rfl⟩ := h
      exact hspan

theorem Reads.span {part : Reading × ParseTree} {node : Node} (h : Reads source part node) :
    ∃ span, source.span part.2 = .ok span ∧ node.span = part.1.span span := by
  obtain ⟨reading, tree⟩ := part
  cases reading with
  | file =>
    simp only [Reads, convertRoot, yields_bind, yields_pure, yields_liftExcept] at h
    obtain ⟨span, hspan, _, _, rfl⟩ := h
    exact ⟨span, hspan, rfl⟩
  | node => exact ⟨node.span, span_of_convert h, rfl⟩
  | member docs decorator =>
    obtain ⟨span, _, _, hspan, _, _, _, hnode, _⟩ := reads_member h
    exact ⟨span, hspan, hnode⟩
  | reference =>
    obtain ⟨_, hspan, _⟩ := reads_reference h
    exact ⟨node.span, hspan, rfl⟩

private theorem decorator_of_mem_childParts {container : Container} {docs : List DocComment}
    {decorator : Option Nat} {row trees : List ParseTree} (hrow : trees ⊆ row)
    (hknown : ∀ start, decorator = some start → ∃ tree ∈ row, startOf? source tree = some start)
    {part : Reading × ParseTree} (h : part ∈ childParts source container docs decorator trees)
    {attached : List DocComment} {start : Nat} (hpart : part.1 = .member attached (some start)) :
    ∃ tree ∈ row, startOf? source tree = some start := by
  induction trees generalizing docs decorator with
  | nil => cases h
  | cons child rest ih =>
    rw [childParts_cons, List.mem_append, Option.mem_toList] at h
    rcases h with h | h
    · obtain ⟨_, hnode | hmember⟩ := mem_ownPart h
      · rw [hnode] at hpart
        cases hpart
      · rw [hmember] at hpart
        injection hpart with _ hstart
        exact hknown start hstart
    · apply ih (fun _ hmem => hrow (List.mem_cons_of_mem _ hmem)) ?_ h
      intro start hstart
      unfold decoratorStep at hstart
      split at hstart
      · rcases Option.or_eq_some_iff.1 hstart with hstart | ⟨_, hstart⟩
        · exact hknown start hstart
        · exact ⟨child, hrow List.mem_cons_self, hstart⟩
      · split at hstart
        · exact hknown start hstart
        · cases hstart

variable {whole part : Reading × ParseTree} {node : Node}

private theorem decorator_of_mem_parts (h : part ∈ parts source whole) {attached : List DocComment}
    {start : Nat} (hpart : part.1 = .member attached (some start)) :
    ∃ tree ∈ whole.2.subtrees, startOf? source tree = some start := by
  obtain ⟨block, hblock, container, h⟩ := exists_block_of_mem_parts h (by rw [hpart]; rfl)
  obtain ⟨tree, htree, hstart⟩ := decorator_of_mem_childParts (List.Subset.refl block.children)
    (by intro start hstart; cases hstart) h hpart
  exact ⟨tree, mem_subtrees_trans hblock
    (mem_subtrees_of_mem_children htree (self_mem_subtrees tree)), hstart⟩

private theorem span_of_startOf? {tree : ParseTree} {start : Nat}
    (h : startOf? source tree = some start) :
    ∃ span, source.span tree = .ok span ∧ span.start = start := by
  cases hspan : source.span tree with
  | error error =>
    rw [startOf?, hspan] at h
    cases h
  | ok span =>
    rw [startOf?, hspan] at h
    exact ⟨span, rfl, Option.some.inj h⟩

theorem Reads.within (hplaced : WellPlaced source.text whole.2) (hpart : part ∈ parts source whole)
    (h : Reads source part node) {outer : Span} (houter : source.span whole.2 = .ok outer) :
    outer.start ≤ node.span.start ∧ node.span.stop ≤ outer.stop := by
  obtain ⟨span, hspan, hnode⟩ := h.span
  have hbelow := mem_subtrees_of_mem_parts hpart
  have hwithin :=
    contains_of_within (hplaced.of_mem hbelow) hplaced (hplaced.within hbelow) hspan houter
  obtain ⟨reading, tree⟩ := part
  rw [hnode]
  refine ⟨?_, (reading.contains_span span).2 ▸ hwithin.2⟩
  cases reading with
  | member docs decorator =>
    refine le_memberSpan_start hwithin.1 ?_
    rintro start rfl
    obtain ⟨origin, horigin, hstart⟩ := decorator_of_mem_parts hpart rfl
    obtain ⟨own, hown, rfl⟩ := span_of_startOf? hstart
    have hfirst :=
      contains_of_within (hplaced.of_mem horigin) hplaced (hplaced.within horigin) hown houter
    exact hfirst.1
  | _ => exact hwithin.1

theorem Reads.contains_child (hplaced : WellPlaced source.text whole.2)
    (h : Reads source whole node) :
    ∀ child ∈ node.children, node.span.contains child.span = true := by
  intro child hchild
  obtain ⟨span, hspan, hnode⟩ := h.span
  obtain ⟨part, hpart, hread⟩ := exists_of_mem_right h.children hchild
  have hwithin := hread.within hplaced hpart hspan
  have hown := whole.1.contains_span span
  rw [Span.contains_eq_true, hnode]
  omega

theorem Reads.contains_below (hplaced : WellPlaced source.text whole.2)
    (h : Reads source whole node) :
    ∀ visit ∈ node.preorder, visit.parent.span.contains visit.node.span = true := by
  induction whole using parts_induction source generalizing node with
  | h whole ih =>
    intro visit hvisit
    rcases Node.mem_preorder_iff.1 hvisit with hown | ⟨first, hfirst, hbelow⟩
    · obtain ⟨hparent, hchild⟩ := Node.mem_visits.1 hown
      rw [hparent]
      exact h.contains_child hplaced visit.node hchild
    · obtain ⟨part, hpart, hread⟩ := exists_of_mem_right h.children (Node.mem_visits.1 hfirst).2
      exact ih part hpart (hplaced.of_mem (mem_subtrees_of_mem_parts hpart)) hread visit hbelow

end Spans

section Rows

def Separate (first second : ParseTree) : Prop :=
  first.range.Before second.range ∨ second.range.Before first.range

theorem Separate.symm {first second : ParseTree} (h : Separate first second) :
    Separate second first := Or.symm h

instance : Std.Symm Separate := ⟨fun _ _ => Separate.symm⟩

structure IsRow (text : Text) (row : List ParseTree) : Prop where
  placed : ∀ tree ∈ row, WellPlaced text tree
  separate : row.Pairwise Separate

theorem WellPlaced.isRow {text : Text} {tree : ParseTree} (h : WellPlaced text tree) :
    IsRow text tree.children where
  placed _ hchild := h.child hchild
  separate := h.children_ordered.imp Or.inl

namespace IsRow

variable {text : Text} {row other : List ParseTree}

theorem sublist (h : IsRow text row) (hsublist : other.Sublist row) : IsRow text other where
  placed tree hmem := h.placed tree (hsublist.subset hmem)
  separate := h.separate.sublist hsublist

theorem perm (h : IsRow text row) (hperm : row.Perm other) : IsRow text other where
  placed tree hmem := h.placed tree (hperm.mem_iff.2 hmem)
  separate := h.separate.perm hperm Separate.symm

theorem separate_of_ne (h : IsRow text row) {first second : ParseTree} (hfirst : first ∈ row)
    (hsecond : second ∈ row) (hne : first ≠ second) : Separate first second :=
  h.separate.forall hfirst hsecond hne

theorem concat (h : IsRow text row) {tree : ParseTree} (htree : WellPlaced text tree)
    (hseparate : ∀ first ∈ row, Separate first tree) : IsRow text (row ++ [tree]) where
  placed := by
    simp only [List.forall_mem_append, List.forall_mem_singleton]
    exact ⟨h.placed, htree⟩
  separate := by
    simp only [List.pairwise_append, List.pairwise_singleton, List.forall_mem_singleton]
    exact ⟨h.separate, trivial, hseparate⟩

end IsRow

def ReadFrom (source : SourceText) (row : List ParseTree) (comment : DocComment) : Prop :=
  ∃ tree ∈ row, ∃ origin ∈ tree.subtrees, comment ∈ docsOf source origin

/-- Comments of some trees that do not overlap. -/
structure Settled (source : SourceText) (row : List ParseTree) (docs : List DocComment) : Prop where
  apart : docs.Pairwise fun first second => first.span.overlaps second.span = false
  origin : ∀ comment ∈ docs, ReadFrom source row comment

private theorem stop_le_start_of_mem_docsOf {first second : ParseTree}
    (hfirst : WellPlaced source.text first) (hsecond : WellPlaced source.text second)
    (hbefore : first.range.Before second.range) {comment later : DocComment}
    (hcomment : comment ∈ docsOf source first) (hlater : later ∈ docsOf source second) :
    comment.span.stop ≤ later.span.start :=
  stop_le_start_of_before hfirst hsecond hbefore (span_of_mem_docsOf hfirst.endsWithin hcomment)
    (span_of_mem_docsOf hsecond.endsWithin hlater)

private theorem overlaps_of_separate {first second below below' : ParseTree}
    (hfirst : WellPlaced source.text first) (hsecond : WellPlaced source.text second)
    (hseparate : Separate first second) (hbelow : below ∈ first.subtrees)
    (hbelow' : below' ∈ second.subtrees) {comment other : DocComment}
    (hcomment : comment ∈ docsOf source below) (hother : other ∈ docsOf source below') :
    comment.span.overlaps other.span = false := by
  have hplaced := hfirst.of_mem hbelow
  have hplaced' := hsecond.of_mem hbelow'
  have hwithin := hfirst.within hbelow
  have hwithin' := hsecond.within hbelow'
  rw [Span.overlaps_eq_false]
  cases hseparate with
  | inl hbefore =>
    right
    refine stop_le_start_of_mem_docsOf hplaced hplaced' ?_ hcomment hother
    exact Int.le_trans hwithin.2 (Int.le_trans hbefore hwithin'.1)
  | inr hbefore =>
    left
    refine stop_le_start_of_mem_docsOf hplaced' hplaced ?_ hother hcomment
    exact Int.le_trans hwithin'.2 (Int.le_trans hbefore hwithin.1)

theorem ReadFrom.mono {row other : List ParseTree} {comment : DocComment}
    (h : ReadFrom source row comment) (hsubset : row ⊆ other) : ReadFrom source other comment := by
  obtain ⟨tree, htree, horigin⟩ := h
  exact ⟨tree, hsubset htree, horigin⟩

namespace Settled

variable {row other : List ParseTree} {docs more : List DocComment}

private theorem nil : Settled source row [] := ⟨.nil, List.forall_mem_nil _⟩

theorem mono (h : Settled source row docs) (hsubset : row ⊆ other) : Settled source other docs :=
  ⟨h.apart, fun comment hmem => (h.origin comment hmem).mono hsubset⟩

theorem of_children (h : Settled source row docs) {tree : ParseTree} (hrow : row ⊆ tree.children) :
    Settled source [tree] docs where
  apart := h.apart
  origin comment hmem := by
    obtain ⟨child, hchild, origin, horigin, hcomment⟩ := h.origin comment hmem
    exact ⟨tree, List.mem_singleton_self tree, origin,
      mem_subtrees_of_mem_children (hrow hchild) horigin, hcomment⟩

theorem append (hrow : IsRow source.text (row ++ other)) (h : Settled source row docs)
    (hmore : Settled source other more) : Settled source (row ++ other) (docs ++ more) where
  apart := by
    refine List.pairwise_append.2 ⟨h.apart, hmore.apart, ?_⟩
    intro comment hcomment later hlater
    obtain ⟨tree, htree, origin, horigin, hread⟩ := h.origin comment hcomment
    obtain ⟨tree', htree', origin', horigin', hread'⟩ := hmore.origin later hlater
    have hseparate := (List.pairwise_append.1 hrow.separate).2.2 tree htree tree' htree'
    exact overlaps_of_separate (hrow.placed tree (List.mem_append_left _ htree))
      (hrow.placed tree' (List.mem_append_right _ htree')) hseparate horigin horigin' hread hread'
  origin := by
    intro comment hmem
    rcases List.mem_append.1 hmem with hmem | hmem
    · exact (h.origin comment hmem).mono (List.subset_append_left _ _)
    · exact (hmore.origin comment hmem).mono (List.subset_append_right _ _)

theorem flatMap (hrow : IsRow source.text row) {read : ParseTree → List DocComment}
    (h : ∀ tree ∈ row, Settled source [tree] (read tree)) :
    Settled source row (row.flatMap read) := by
  induction row with
  | nil => exact nil
  | cons tree rest ih =>
    have hboth : IsRow source.text ([tree] ++ rest) := hrow
    rw [List.flatMap_cons]
    apply append hboth (h tree List.mem_cons_self)
    exact ih (hrow.sublist (List.sublist_cons_self tree rest)) fun later hlater =>
      h later (List.mem_cons_of_mem _ hlater)

end Settled

private theorem pairwise_docsOf {R : DocComment → DocComment → Prop} (tree : ParseTree) :
    (docsOf source tree).Pairwise R := by
  rw [docsOf_eq]
  split
  · dsimp only
    split
    · exact List.pairwise_singleton _ _
    · exact .nil
  · exact .nil

private theorem settled_docsOf (tree : ParseTree) : Settled source [tree] (docsOf source tree) where
  apart := pairwise_docsOf tree
  origin _ hmem := ⟨tree, List.mem_singleton_self tree, tree, self_mem_subtrees tree, hmem⟩

end Rows

section Attached

def Reading.docs : Reading → List DocComment
  | .member docs _ => docs
  | _ => []

def docsBelow (source : SourceText) (whole : Reading × ParseTree) : List DocComment :=
  (allParts source whole).flatMap fun part => part.1.docs

def docsAt (source : SourceText) (part : Reading × ParseTree) : List DocComment :=
  part.1.docs ++ docsBelow source part

private theorem docsBelow_eq (whole : Reading × ParseTree) :
    docsBelow source whole = (parts source whole).flatMap (docsAt source) := by
  rw [docsBelow, allParts_eq, List.flatMap_assoc]
  rfl

def SettledBelow (source : SourceText) (part : Reading × ParseTree) : Prop :=
  Settled source [part.2] (docsBelow source part)

/-- In a row, comments wait for a member; none of them is used again. -/
theorem settled_childParts {container : Container} {docs : List DocComment}
    {decorator : Option Nat} {before trees : List ParseTree}
    (hrow : IsRow source.text (before ++ trees)) (hdocs : Settled source before docs)
    (hbelow : ∀ part ∈ childParts source container docs decorator trees, SettledBelow source part) :
    Settled source (before ++ trees)
      ((childParts source container docs decorator trees).flatMap (docsAt source)) := by
  -- `before` are the nodes that the waiting comments come from. A comment joins them, a member
  -- takes them all, and a node that takes nothing is moved in front of them or dropped.
  induction trees generalizing before docs decorator with
  | nil => exact .nil
  | cons child rest ih =>
    have hperm : (before ++ child :: rest).Perm ([child] ++ (before ++ rest)) := List.perm_middle
    have hrest : IsRow source.text (before ++ rest) :=
      (hrow.perm hperm).sublist (List.sublist_cons_self _ _)
    rw [childParts] at hbelow ⊢
    split at hbelow
    · rename_i hcomment
      rw [List.append_cons] at hrow ⊢
      rw [if_pos hcomment]
      apply ih hrow ?_ hbelow
      exact hdocs.append (hrow.sublist (List.sublist_append_left _ _)) (settled_docsOf child)
    · rename_i hcomment
      rw [if_neg hcomment]
      split at hbelow
      · rename_i hdecorator
        obtain ⟨hown, hothers⟩ := List.forall_mem_cons.1 hbelow
        rw [if_pos hdecorator, List.flatMap_cons]
        exact (Settled.append (hrow.perm hperm) hown (ih hrest hdocs hothers)).mono
          hperm.symm.subset
      · rename_i hdecorator
        rw [if_neg hdecorator]
        split at hbelow
        · rename_i htoken
          rw [if_pos htoken]
          exact (ih hrest hdocs hbelow).mono
            (List.Subset.trans (List.subset_append_right _ _) hperm.symm.subset)
        · rename_i htoken
          obtain ⟨hown, hothers⟩ := List.forall_mem_cons.1 hbelow
          have hbehind : IsRow source.text ([] ++ rest) :=
            hrest.sublist (List.sublist_append_right before rest)
          have hlater := Settled.append (hrow.sublist (List.sublist_append_right before _)) hown
            (ih hbehind .nil hothers)
          rw [if_neg htoken, List.flatMap_cons]
          split
          · rename_i hmember
            rw [if_pos hmember] at hlater
            rw [docsAt, List.append_assoc]
            exact hdocs.append hrow hlater
          · rename_i hmember
            rw [if_neg hmember] at hlater
            exact hlater.mono (List.subset_append_right before _)

private theorem settled_blockParts {container : Container} {block : ParseTree}
    (hplaced : WellPlaced source.text block)
    (hbelow : ∀ part ∈ blockParts source container block, SettledBelow source part) :
    Settled source [block] ((blockParts source container block).flatMap (docsAt source)) := by
  have hrow : IsRow source.text ([] ++ block.children) := hplaced.isRow
  exact (settled_childParts hrow .nil hbelow).of_children (List.Subset.refl _)

private theorem settled_row {reading : Reading} (hreading : reading.docs = [])
    {row : List ParseTree}
    (hrow : IsRow source.text row) (hbelow : ∀ tree ∈ row, SettledBelow source (reading, tree)) :
    Settled source row ((row.map (reading, ·)).flatMap (docsAt source)) := by
  rw [List.flatMap_map]
  apply Settled.flatMap hrow
  intro tree htree
  rw [docsAt, hreading]
  exact hbelow tree htree

private theorem settled_references {row : List ParseTree} {select : ParseTree → List ParseTree}
    (hselect : ∀ clause, (select clause).Sublist clause.children) (hrow : IsRow source.text row)
    (hbelow : ∀ tree ∈ row.flatMap select, SettledBelow source (.reference, tree)) :
    Settled source row (((row.flatMap select).map (.reference, ·)).flatMap (docsAt source)) := by
  rw [List.map_flatMap, List.flatMap_assoc]
  apply Settled.flatMap hrow
  intro clause hclause
  have hvalues := (hrow.placed clause hclause).isRow.sublist (hselect clause)
  apply (settled_row rfl hvalues ?_).of_children (hselect clause).subset
  intro tree htree
  exact hbelow tree (List.mem_flatMap.2 ⟨clause, hclause, htree⟩)

private theorem settled_classChildParts {child : ParseTree} (hplaced : WellPlaced source.text child)
    (hbelow : ∀ part ∈ classChildParts source child, SettledBelow source part) :
    Settled source [child] ((classChildParts source child).flatMap (docsAt source)) := by
  unfold classChildParts at hbelow ⊢
  split
  · rename_i hdecorator
    rw [if_pos hdecorator, List.forall_mem_singleton] at hbelow
    rw [List.flatMap_singleton]
    exact hbelow
  · rename_i hdecorator
    rw [if_neg hdecorator] at hbelow
    split
    · rename_i hheritage
      rw [if_pos hheritage] at hbelow
      have hclauses :=
        hplaced.isRow.sublist (List.filter_sublist (p := (heritageToken? · |>.isSome)))
      apply (settled_references (fun clause => List.filter_sublist) hclauses ?_).of_children
        List.filter_sublist.subset
      intro tree htree
      exact hbelow (.reference, tree) (List.mem_map_of_mem htree)
    · rename_i hheritage
      rw [if_neg hheritage] at hbelow
      split
      · rename_i hbody
        rw [if_pos hbody] at hbelow
        exact settled_blockParts hplaced hbelow
      · exact .nil

/-- The body of an interface is none of its base clauses. -/
def SeparateBodies (root : ParseTree) : Prop :=
  ∀ tree ∈ root.subtrees, tree.type = "interface_declaration" →
    ∀ body ∈ tree.child? "body", isBaseClause body = false

instance (root : ParseTree) : Decidable (SeparateBodies root) :=
  inferInstanceAs (Decidable (∀ tree ∈ root.subtrees, _ → ∀ body ∈ tree.child? "body", _))

theorem SeparateBodies.of_mem {root tree : ParseTree} (h : SeparateBodies root)
    (hmem : tree ∈ root.subtrees) : SeparateBodies tree :=
  fun below hbelow => h below (mem_subtrees_trans hmem hbelow)

private theorem settled_interfaceParts {interface : ParseTree}
    (hplaced : WellPlaced source.text interface)
    (hbody : ∀ body ∈ interface.child? "body", isBaseClause body = false)
    (hbelow : ∀ part ∈ interfaceParts source interface, SettledBelow source part) :
    Settled source [interface] ((interfaceParts source interface).flatMap (docsAt source)) := by
  obtain ⟨hreferences, hblock⟩ := List.forall_mem_append.1 hbelow
  have hclauses : IsRow source.text (interface.children.filter isBaseClause) :=
    hplaced.isRow.sublist List.filter_sublist
  have hbases := settled_references (fun clause => List.filter_sublist) hclauses fun tree htree =>
    hreferences (.reference, tree) (List.mem_map_of_mem htree)
  rw [interfaceParts, List.flatMap_append]
  cases hfound : interface.child? "body" with
  | none =>
    rw [Option.map_none, Option.getD_none, List.flatMap_nil, List.append_nil]
    exact hbases.of_children List.filter_sublist.subset
  | some body =>
    rw [hfound] at hbody hblock
    have hmem : body ∈ interface.children := List.mem_of_find?_eq_some hfound
    have hrow : IsRow source.text (interface.children.filter isBaseClause ++ [body]) := by
      apply hclauses.concat (hplaced.child hmem)
      intro clause hclause
      obtain ⟨hchild, hbase⟩ := List.mem_filter.1 hclause
      apply hplaced.isRow.separate_of_ne hchild hmem
      rintro rfl
      rw [hbody clause rfl] at hbase
      cases hbase
    apply (hbases.append hrow (settled_blockParts (hplaced.child hmem) hblock)).of_children
    apply List.append_subset.2
    exact ⟨List.filter_sublist.subset, List.cons_subset.2 ⟨hmem, List.nil_subset _⟩⟩

private theorem settled_parts {whole : Reading × ParseTree}
    (hplaced : WellPlaced source.text whole.2) (hbodies : SeparateBodies whole.2)
    (hbelow : ∀ part ∈ parts source whole, SettledBelow source part) :
    Settled source [whole.2] ((parts source whole).flatMap (docsAt source)) := by
  obtain ⟨reading, tree⟩ := whole
  cases reading with
  | file => exact settled_blockParts hplaced hbelow
  | reference => exact settled_blockParts hplaced hbelow
  | member docs decorator =>
    apply (settled_row rfl (hplaced.isRow.sublist List.filter_sublist) ?_).of_children
      List.filter_sublist.subset
    intro child hchild
    exact hbelow (.node, child) (List.mem_map_of_mem hchild)
  | node =>
    rw [parts] at hbelow ⊢
    split
    · rename_i hclass
      rw [if_pos hclass] at hbelow
      rw [List.flatMap_assoc]
      apply (Settled.flatMap hplaced.isRow ?_).of_children (List.Subset.refl _)
      intro child hchild
      exact settled_classChildParts (hplaced.child hchild) fun part hpart =>
        hbelow part (List.mem_flatMap.2 ⟨child, hchild, hpart⟩)
    · rename_i hclass
      rw [if_neg hclass] at hbelow
      split
      · rename_i hinterface
        rw [if_pos hinterface] at hbelow
        have hbody := hbodies tree (self_mem_subtrees tree) hinterface
        exact settled_interfaceParts hplaced hbody hbelow
      · rename_i hinterface
        rw [if_neg hinterface] at hbelow
        exact settled_blockParts hplaced hbelow

private theorem settledBelow {whole : Reading × ParseTree}
    (hplaced : WellPlaced source.text whole.2)
    (hbodies : SeparateBodies whole.2) : SettledBelow source whole := by
  induction whole using parts_induction source with
  | h whole ih =>
    rw [SettledBelow, docsBelow_eq]
    apply settled_parts hplaced hbodies
    intro part hpart
    have hmem := mem_subtrees_of_mem_parts hpart
    exact ih part hpart (hplaced.of_mem hmem) (hbodies.of_mem hmem)

end Attached

section Soundness

variable {whole part : Reading × ParseTree} {node : Node}

theorem Reads.docs (h : Reads source part node) :
    (node.member?.map (·.docs)).getD [] = part.1.docs := by
  have hkind := h.member?_isSome
  obtain ⟨reading, tree⟩ := part
  cases reading with
  | member docs decorator =>
    obtain ⟨_, _, _, _, _, _, _, _, hrole⟩ := reads_member h
    rw [Node.member?, hrole]
    rfl
  | _ =>
    rw [Option.isSome_eq_false_iff.1 hkind |> Option.isNone_iff_eq_none.1]
    rfl

private theorem flatMap_docs {found : List (Reading × ParseTree)} {nodes : List Node}
    (h : List.Forall₂ (Reads source) found nodes) :
    nodes.flatMap (fun node => (node.member?.map (·.docs)).getD []) =
      found.flatMap fun part => part.1.docs := by
  induction h with
  | nil => rfl
  | cons hfirst _ ih => rw [List.flatMap_cons, List.flatMap_cons, hfirst.docs, ih]

private theorem flatMap_docs_memberVisits (node : Node) :
    node.memberVisits.flatMap (·.2.docs) =
      (node.preorder.map (·.node)).flatMap fun node => (node.member?.map (·.docs)).getD [] := by
  rw [Node.memberVisits, Node.descendants_eq]
  induction node.preorder with
  | nil => rfl
  | cons visit rest ih =>
    cases hmember : visit.node.member? <;> simp [hmember, ih]

theorem Reads.docs_memberVisits (h : Reads source whole node) :
    node.memberVisits.flatMap (·.2.docs) = docsBelow source whole := by
  rw [flatMap_docs_memberVisits, flatMap_docs h.allParts, docsBelow]

private theorem pairwise_docsAmong {row : List ParseTree}
    (hplaced : ∀ tree ∈ row, WellPlaced source.text tree)
    (hordered : row.Pairwise fun first second => first.range.Before second.range) :
    (docsAmong source row).Pairwise fun first second => first.span.stop ≤ second.span.start := by
  rw [docsAmong, List.pairwise_flatMap]
  refine ⟨fun tree _ => pairwise_docsOf tree, ?_⟩
  refine (hordered.sublist List.filter_sublist).imp_of_mem ?_
  intro first second hfirst hsecond hbefore comment hcomment later hlater
  exact stop_le_start_of_mem_docsOf (hplaced first (List.mem_of_mem_filter hfirst))
    (hplaced second (List.mem_of_mem_filter hsecond)) hbefore hcomment hlater

private theorem ordered_of_mem_allParts (hplaced : WellPlaced source.text whole.2)
    {docs : List DocComment} {start : Option Nat} {tree : ParseTree}
    (h : (.member docs start, tree) ∈ allParts source whole) :
    docs.Pairwise fun first second => first.span.stop ≤ second.span.start := by
  obtain ⟨block, hblock, before, after, hchildren, rfl⟩ := docs_of_mem_allParts h
  have hrow : (before.rtakeWhile isTransparent).Sublist block.children := by
    rw [hchildren]
    exact (List.rtakeWhile_suffix _ _).sublist.trans (List.sublist_append_left _ _)
  have hplaced := hplaced.of_mem hblock
  exact pairwise_docsAmong (fun child hchild => hplaced.child (hrow.subset hchild))
    (hplaced.children_ordered.sublist hrow)

structure StandsIn (text : Text) (comment : DocComment) : Prop where
  nonempty : comment.span.start < comment.span.stop
  within : comment.span.stop ≤ text.length
  tags : ∀ tag ∈ comment.tags, tag.StandsIn text
  names : ∀ tag ∈ comment.tags, tag.span.contains tag.nameSpan = true
  inside : ∀ tag ∈ comment.tags, comment.span.contains tag.span = true

private theorem start_lt_stop_of_mem_docsOf {tree : ParseTree} (hends : EndsWithin source tree)
    {comment : DocComment} (h : comment ∈ docsOf source tree) :
    comment.span.start < comment.span.stop := by
  have hown := span_of_mem_docsOf hends h
  obtain ⟨span, hspan, hdoc, _⟩ := mem_docsOf h
  cases hspan.symm.trans hown
  apply Nat.lt_of_not_le
  intro hempty
  rw [Text.slice, Nat.sub_eq_zero_of_le hempty, List.take_zero] at hdoc
  cases hdoc

private theorem standsIn_of_mem_docsOf {tree : ParseTree} (hends : EndsWithin source tree)
    {comment : DocComment} (h : comment ∈ docsOf source tree) : StandsIn source.text comment := by
  have hslice := isSlice_docsOf hends h
  refine ⟨start_lt_stop_of_mem_docsOf hends h, hslice.within, fun tag htag => hslice.standsIn htag,
    ?_, ?_⟩
  · intro tag htag
    have hbounds := (hslice.wellPlaced.tags tag htag).bounds
    rw [Span.contains_eq_true]
    omega
  · intro tag htag
    have hbounds := hslice.wellPlaced.bounds htag
    rw [Span.contains_eq_true]
    omega

/-- A converted tree whose nodes are linked and nested and whose comments are each attached
once, in order, with tags that stand in the text. -/
structure SoundlyAttached (text : Text) (root : Node) : Prop where
  linked : ∀ visit, visit ∈ root.descendants ↔
    (visit.parent = root ∨ ∃ above ∈ root.descendants, above.node = visit.parent) ∧
      visit.node ∈ visit.parent.children
  nested : ∀ visit ∈ root.descendants, visit.parent.span.contains visit.node.span = true
  apart : (root.memberVisits.flatMap (·.2.docs)).Pairwise fun first second =>
    first.span.overlaps second.span = false
  ordered : ∀ visited ∈ root.memberVisits,
    visited.2.docs.Pairwise fun first second => first.span.stop ≤ second.span.start
  stands : ∀ visited ∈ root.memberVisits, ∀ comment ∈ visited.2.docs, StandsIn text comment

theorem Reads.soundlyAttached {root : ParseTree} (hplaced : WellPlaced source.text root)
    (hbodies : SeparateBodies root) (h : Reads source (.file, root) node) :
    SoundlyAttached source.text node := by
  have hsettled : SettledBelow source (.file, root) := settledBelow hplaced hbodies
  refine ⟨fun visit => Node.mem_descendants_iff, ?_, ?_, ?_, ?_⟩
  · rw [Node.descendants_eq]
    exact h.contains_below hplaced
  · rw [h.docs_memberVisits]
    exact hsettled.apart
  · intro visited hvisited
    obtain ⟨tree, start, hpart, _⟩ := h.exists_member hvisited
    exact ordered_of_mem_allParts hplaced hpart
  · intro visited hvisited comment hcomment
    have hmem : comment ∈ docsBelow source (.file, root) := by
      rw [← h.docs_memberVisits]
      exact List.mem_flatMap.2 ⟨visited, hvisited, hcomment⟩
    obtain ⟨tree, htree, origin, horigin, hread⟩ := hsettled.origin comment hmem
    obtain rfl := List.mem_singleton.1 htree
    exact standsIn_of_mem_docsOf (hplaced.of_mem horigin).endsWithin hread

/-- A tree with nested and ordered ranges is converted, and comments are attached soundly. -/
theorem convertRoot_soundlyAttached (file : String) {text : Text} {root : ParseTree}
    (hplaced : WellPlaced text root) (hbodies : SeparateBodies root) :
    (OffsetMap.Countable text → ∃ node, Yields (convertRoot (.ofText file text) root) node) ∧
      ∀ node, Yields (convertRoot (.ofText file text) root) node → SoundlyAttached text node := by
  constructor
  · intro hsize
    have hfits : FitsThroughout (.ofText file text) root := WellPlaced.fitsThroughout hplaced hsize
    exact readable_of_fits (.file, root) hfits
  · intro node hnode
    have hreads : Reads (.ofText file text) (.file, root) node := hnode
    exact hreads.soundlyAttached hplaced hbodies

def wovenText : Text :=
  ("class A \x7b /** é @x */ @d(class \x7b /** @y */ n() \x7b\x7d \x7d) /** @override z */ " ++
    "m() \x7b\x7d \x7d interface I extends J \x7b \x7d").toList

def wovenDecorator : ParseTree :=
  .node "decorator" true ⟨23, 53⟩ none
    [.node "class" true ⟨26, 52⟩ none
      [.node "class_body" true ⟨32, 52⟩ (some "body")
        [.node "comment" true ⟨34, 43⟩ none [],
          .node "method_definition" true ⟨44, 50⟩ none
            [.node "property_identifier" true ⟨44, 45⟩ (some "name") []]]]]

def wovenTree : ParseTree :=
  .node "program" true ⟨0, 107⟩ none
    [.node "class_declaration" true ⟨0, 81⟩ none
      [.node "type_identifier" true ⟨6, 7⟩ (some "name") [],
        .node "class_body" true ⟨8, 81⟩ (some "body")
          [.node "comment" true ⟨10, 22⟩ none [], wovenDecorator,
            .node "comment" true ⟨54, 72⟩ none [],
            .node "method_definition" true ⟨73, 79⟩ none
              [.node "property_identifier" true ⟨73, 74⟩ (some "name") []]]],
      .node "interface_declaration" true ⟨82, 107⟩ none
        [.node "type_identifier" true ⟨92, 93⟩ (some "name") [],
          .node "extends_type_clause" true ⟨94, 103⟩ none
            [.node "type_identifier" true ⟨102, 103⟩ none []],
          .node "interface_body" true ⟨104, 107⟩ (some "body") []]]

theorem convertRoot_soundlyAttached_woven :
    WellPlaced wovenText wovenTree ∧ SeparateBodies wovenTree ∧
      ∃ node, Yields (convertRoot (.ofText "a.ts" wovenText) wovenTree) node ∧
        node.memberVisits.map (fun visited => visited.2.docs.map (·.span.start)) =
          [[33], [10, 53]] ∧
        SoundlyAttached wovenText node := by
  have hplaced : WellPlaced wovenText wovenTree := by decide +kernel
  have hbodies : SeparateBodies wovenTree := by decide +kernel
  have hsound := convertRoot_soundlyAttached "a.ts" hplaced hbodies
  obtain ⟨node, hnode⟩ := hsound.1 (by decide +kernel)
  have hstarts : (convertRoot (.ofText "a.ts" wovenText) wovenTree).run.value.map
      (fun node => node.memberVisits.map fun visited => visited.2.docs.map (·.span.start)) =
        .ok [[33], [10, 53]] := by
    decide +kernel
  rw [hnode] at hstarts
  exact ⟨hplaced, hbodies, node, hnode, Except.ok.inj hstarts, hsound.2 node hnode⟩

end Soundness
end OverrideLint.ParseTree
