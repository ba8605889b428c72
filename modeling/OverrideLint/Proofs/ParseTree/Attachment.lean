import Mathlib.Data.List.DropRight
import OverrideLint.Proofs.ParseTree.Reading

/-! Which comments a member gets. They are those among the children before it that no other
node separates from it; comments, decorators and tokens do not separate. -/
namespace OverrideLint.ParseTree

variable {source : SourceText} {container : Container} {docs : List DocComment}
  {decorator : Option Nat}

/-- Comments, decorators and tokens leave the comments before them waiting for a member. -/
def isTransparent (child : ParseTree) : Bool :=
  child.type == "comment" || child.type == "decorator" || !child.named

section Steps

def waitingStep (source : SourceText) (docs : List DocComment) (child : ParseTree) :
    List DocComment :=
  if child.type = "comment" then docs ++ docsOf source child
  else if child.isTransparent then docs
  else []

def decoratorStep (source : SourceText) (decorator : Option Nat) (child : ParseTree) : Option Nat :=
  if child.type = "decorator" then decorator.or (startOf? source child)
  else if child.isTransparent then decorator
  else none

def ownPart (container : Container) (docs : List DocComment) (decorator : Option Nat)
    (child : ParseTree) : Option (Reading × ParseTree) :=
  if child.type = "decorator" then some (.node, child)
  else if child.isTransparent then none
  else some (if container.hasMember child.type then .member docs decorator else .node, child)

theorem childParts_cons (child : ParseTree) (rest : List ParseTree) :
    childParts source container docs decorator (child :: rest) =
      (ownPart container docs decorator child).toList ++
        childParts source container (waitingStep source docs child)
          (decoratorStep source decorator child) rest := by
  rw [childParts]
  by_cases hcomment : child.type = "comment"
  · simp [ownPart, waitingStep, decoratorStep, isTransparent, hcomment]
  · by_cases hdecorator : child.type = "decorator"
    · simp [ownPart, waitingStep, decoratorStep, isTransparent, hdecorator]
    · by_cases htoken : child.named = true
      · simp [ownPart, waitingStep, decoratorStep, isTransparent, hcomment, hdecorator, htoken]
      · simp [ownPart, waitingStep, decoratorStep, isTransparent, hcomment, hdecorator, htoken]

theorem mem_ownPart {child : ParseTree} {part : Reading × ParseTree}
    (h : part ∈ ownPart container docs decorator child) :
    part.2 = child ∧ (part.1 = .node ∨ part.1 = .member docs decorator) := by
  unfold ownPart at h
  split at h
  · cases h
    exact ⟨rfl, .inl rfl⟩
  · split at h
    · cases h
    · cases h
      refine ⟨rfl, ?_⟩
      dsimp only
      split
      · exact .inr rfl
      · exact .inl rfl

end Steps

section Waiting

/-- The comments that are waiting for a member behind a row of children. -/
def waiting (source : SourceText) (docs : List DocComment) (row : List ParseTree) :
    List DocComment :=
  row.foldl (waitingStep source) docs

def docsAmong (source : SourceText) (row : List ParseTree) : List DocComment :=
  (row.filter (·.type == "comment")).flatMap (docsOf source)

private theorem docsAmong_concat (row : List ParseTree) (child : ParseTree) :
    docsAmong source (row ++ [child]) =
      docsAmong source row ++ if child.type = "comment" then docsOf source child else [] := by
  by_cases hcomment : child.type = "comment"
  · simp [docsAmong, hcomment]
  · simp [docsAmong, hcomment]

/-- What is waiting has come since the last node that separates. -/
theorem waiting_eq (row : List ParseTree) :
    waiting source [] row = docsAmong source (row.rtakeWhile isTransparent) := by
  induction row using List.reverseRecOn with
  | nil => simp [waiting, docsAmong]
  | append_singleton row child ih =>
    rw [waiting, List.foldl_concat, ← waiting, ih, waitingStep, List.rtakeWhile_concat]
    by_cases hcomment : child.type = "comment"
    · have hpass : child.isTransparent = true := by simp [isTransparent, hcomment]
      rw [if_pos hcomment, if_pos hpass, docsAmong_concat, if_pos hcomment]
    · rw [if_neg hcomment]
      by_cases hpass : child.isTransparent = true
      · rw [if_pos hpass, if_pos hpass, docsAmong_concat, if_neg hcomment, List.append_nil]
      · rw [if_neg hpass, if_neg hpass]
        rfl

private theorem member_of_mem_childParts {trees : List ParseTree} {part : Reading × ParseTree}
    (h : part ∈ childParts source container docs decorator trees)
    (hmember : part.1.isMember = true) :
    ∃ before after start, trees = before ++ part.2 :: after ∧
      part.1 = .member (waiting source docs before) start := by
  induction trees generalizing docs decorator with
  | nil => cases h
  | cons child rest ih =>
    rw [childParts_cons, List.mem_append, Option.mem_toList] at h
    rcases h with h | h
    · obtain ⟨rfl, hnode | hreading⟩ := mem_ownPart h
      · rw [hnode] at hmember
        cases hmember
      · exact ⟨[], rest, decorator, rfl, hreading⟩
    · obtain ⟨before, after, start, rfl, hreading⟩ := ih h
      exact ⟨child :: before, after, start, rfl, hreading⟩

theorem exists_block_of_mem_parts {whole part : Reading × ParseTree}
    (h : part ∈ parts source whole) (hmember : part.1.isMember = true) :
    ∃ block ∈ whole.2.subtrees, ∃ container, part ∈ blockParts source container block := by
  obtain ⟨reading, tree⟩ := whole
  have hown (h : part ∈ blockParts source .other tree) :
      ∃ block ∈ tree.subtrees, ∃ container, part ∈ blockParts source container block :=
    ⟨tree, self_mem_subtrees tree, .other, h⟩
  have hbelow {child : ParseTree} {container : Container} (hchild : child ∈ tree.children)
      (h : part ∈ blockParts source container child) :
      ∃ block ∈ tree.subtrees, ∃ container, part ∈ blockParts source container block :=
    ⟨child, mem_subtrees_of_mem_children hchild (self_mem_subtrees child), container, h⟩
  cases reading with
  | file => exact hown h
  | reference => exact hown h
  | member docs decorator =>
    obtain ⟨_, _, rfl⟩ := List.mem_map.1 h
    cases hmember
  | node =>
    rw [parts] at h
    split at h
    · obtain ⟨child, hchild, h⟩ := List.mem_flatMap.1 h
      rw [classChildParts] at h
      split at h
      · rw [List.mem_singleton.1 h] at hmember
        cases hmember
      · split at h
        · obtain ⟨_, _, rfl⟩ := List.mem_map.1 h
          cases hmember
        · split at h
          · exact hbelow hchild h
          · cases h
    · split at h
      · rcases List.mem_append.1 h with h | h
        · obtain ⟨_, _, rfl⟩ := List.mem_map.1 h
          cases hmember
        · cases hbody : tree.child? "body" with
          | none =>
            rw [hbody] at h
            cases h
          | some body =>
            rw [hbody] at h
            exact hbelow (List.mem_of_find?_eq_some hbody) h
      · exact hown h

end Waiting

section Attached

private theorem exists_block_of_mem_allParts {whole part : Reading × ParseTree}
    (h : part ∈ allParts source whole) (hmember : part.1.isMember = true) :
    ∃ block ∈ whole.2.subtrees, ∃ container, part ∈ blockParts source container block := by
  induction whole using parts_induction source with
  | h whole ih =>
    rw [allParts_eq] at h
    obtain ⟨direct, hdirect, h⟩ := List.mem_flatMap.1 h
    rcases List.mem_cons.1 h with rfl | h
    · exact exists_block_of_mem_parts hdirect hmember
    · obtain ⟨block, hblock, hpart⟩ := ih direct hdirect h
      exact ⟨block, mem_subtrees_trans (mem_subtrees_of_mem_parts hdirect) hblock, hpart⟩

theorem Reads.exists_member {whole : Reading × ParseTree} {node : Node}
    (h : Reads source whole node) {visited : Visit × Member}
    (hvisited : visited ∈ node.memberVisits) :
    ∃ tree start, (.member visited.2.docs start, tree) ∈ ParseTree.allParts source whole ∧
      Reads source (.member visited.2.docs start, tree) visited.1.node := by
  obtain ⟨visit, hvisit, hpair⟩ := List.mem_filterMap.1 hvisited
  obtain ⟨member, hmember, rfl⟩ := Option.map_eq_some_iff.1 hpair
  rw [Node.descendants_eq] at hvisit
  obtain ⟨⟨reading, tree⟩, hpart, hread⟩ := h.exists_part hvisit
  have hkind := hread.member?_isSome
  rw [hmember] at hkind
  cases reading with
  | file => cases hkind
  | node => cases hkind
  | reference => cases hkind
  | member docs start =>
    obtain ⟨_, _, _, _, _, _, _, _, hrole⟩ := reads_member hread
    rw [Node.member?, hrole] at hmember
    cases hmember
    exact ⟨tree, start, hpart, hread⟩

theorem docs_of_mem_allParts {whole : Reading × ParseTree} {docs : List DocComment}
    {start : Option Nat} {tree : ParseTree}
    (h : (.member docs start, tree) ∈ allParts source whole) :
    ∃ block ∈ whole.2.subtrees, ∃ before after, block.children = before ++ tree :: after ∧
      docs = docsAmong source (before.rtakeWhile isTransparent) := by
  obtain ⟨block, hblock, container, hpart⟩ := exists_block_of_mem_allParts h rfl
  obtain ⟨before, after, _, hchildren, hreading⟩ := member_of_mem_childParts hpart rfl
  injection hreading with hdocs
  exact ⟨block, hblock, before, after, hchildren, hdocs.trans (waiting_eq before)⟩

/-- The comments of a member are the documentation comments among the children before it, in
order, as far back as nothing but comments, decorators and tokens stands between. -/
theorem docs_eq_docsAmong {root : ParseTree} {node : Node}
    (h : Yields (convertRoot source root) node) :
    ∀ visited ∈ node.memberVisits, ∃ block ∈ root.subtrees, ∃ before tree after start,
      block.children = before ++ tree :: after ∧
      Yields (convertMember source visited.2.docs start tree) visited.1.node ∧
      visited.2.docs = docsAmong source (before.rtakeWhile isTransparent) := by
  intro visited hvisited
  have hreads : Reads source (.file, root) node := h
  obtain ⟨tree, start, hpart, hread⟩ := hreads.exists_member hvisited
  obtain ⟨block, hblock, before, after, hchildren, hdocs⟩ := docs_of_mem_allParts hpart
  exact ⟨block, hblock, before, tree, after, start, hchildren, hread, hdocs⟩

def separatedText : Text := "class A \x7b /** @override */ ; m() \x7b\x7d \x7d".toList

def separatedBefore : List ParseTree :=
  [.node "\x7b" false ⟨8, 9⟩ none [], .node "comment" true ⟨10, 26⟩ none [],
    .node ";" false ⟨27, 28⟩ none []]

def separatedMethod : ParseTree :=
  .node "method_definition" true ⟨29, 35⟩ none
    [.node "property_identifier" true ⟨29, 30⟩ (some "name") [],
      .node "formal_parameters" true ⟨30, 32⟩ (some "parameters")
        [.node "(" false ⟨30, 31⟩ none [], .node ")" false ⟨31, 32⟩ none []],
      .node "statement_block" true ⟨33, 35⟩ (some "body")
        [.node "\x7b" false ⟨33, 34⟩ none [], .node "\x7d" false ⟨34, 35⟩ none []]]

def separatedTree : ParseTree :=
  .node "program" true ⟨0, 37⟩ none
    [.node "class_declaration" true ⟨0, 37⟩ none
      [.node "class" false ⟨0, 5⟩ none [], .node "type_identifier" true ⟨6, 7⟩ (some "name") [],
        .node "class_body" true ⟨8, 37⟩ (some "body")
          (separatedBefore ++ separatedMethod :: [.node "\x7d" false ⟨36, 37⟩ none []])]]

theorem docs_eq_docsAmong_separated :
    ∃ node, Yields (convertRoot (.ofText "a.ts" separatedText) separatedTree) node ∧
      node.memberVisits.length = 1 ∧
      ∀ visited ∈ node.memberVisits, ∃ block ∈ separatedTree.subtrees,
        ∃ before tree after start, block.children = before ++ tree :: after ∧
          Yields (convertMember (.ofText "a.ts" separatedText) visited.2.docs start tree)
            visited.1.node ∧
          visited.2.docs =
            docsAmong (.ofText "a.ts" separatedText) (before.rtakeWhile isTransparent) := by
  have hcount : (convertRoot (.ofText "a.ts" separatedText) separatedTree).run.value.map
      (·.memberVisits.length) = .ok 1 := by
    decide +kernel
  obtain ⟨node, hnode, hlength⟩ := exists_ok_of_map hcount
  exact ⟨node, hnode, hlength, docs_eq_docsAmong hnode⟩

/-- A token separates no comment from a member: with nothing but comments and decorators in
between there is no comment before the member, and yet it gets one. -/
theorem separated_comment_attached :
    docsAmong (.ofText "a.ts" separatedText) (separatedBefore.rtakeWhile fun child =>
        child.type == "comment" || child.type == "decorator") = [] ∧
      ∃ node, Yields (convertRoot (.ofText "a.ts" separatedText) separatedTree) node ∧
        node.memberVisits.map (fun visited => (visited.1.node.span.start, visited.2.docs.length)) =
          [(29, 1)] := by
  have hcount : (convertRoot (.ofText "a.ts" separatedText) separatedTree).run.value.map
      (fun node => node.memberVisits.map fun visited =>
        (visited.1.node.span.start, visited.2.docs.length)) = .ok [(29, 1)] := by
    decide +kernel
  exact ⟨by decide +kernel, exists_ok_of_map hcount⟩

end Attached
end OverrideLint.ParseTree
