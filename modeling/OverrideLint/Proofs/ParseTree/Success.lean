import OverrideLint.Proofs.ParseTree.Reading

/-! A concrete tree is converted without failure when the ranges of all its nodes fit the
text: reading goes wrong in no other way. -/
namespace OverrideLint

def Defined {α : Type} (action : Except RangeError α) : Prop := ∃ value, action = .ok value

instance {α : Type} (action : Except RangeError α) : Decidable (Defined action) :=
  match action with
  | .ok value => isTrue ⟨value, rfl⟩
  | .error _ => isFalse fun h => nomatch h

section Defined

variable {α β : Type}

private theorem defined_pure (value : α) : Defined (pure value) := ⟨value, rfl⟩

theorem Defined.bind {action : Except RangeError α} {next : α → Except RangeError β}
    (h : Defined action) (hnext : ∀ value, Defined (next value)) : Defined (action >>= next) := by
  obtain ⟨value, rfl⟩ := h
  exact hnext value

theorem Defined.mapM {items : List α} {action : α → Except RangeError β}
    (h : ∀ item ∈ items, Defined (action item)) : Defined (items.mapM action) := by
  induction items with
  | nil => exact defined_pure []
  | cons item rest ih =>
    rw [List.mapM_cons]
    refine (h item List.mem_cons_self).bind fun first => ?_
    exact (ih fun later hlater => h later (List.mem_cons_of_mem _ hlater)).bind fun others =>
      defined_pure (first :: others)

def Succeeds (action : Converted α) : Prop := ∃ value, Yields action value

private theorem succeeds_pure (value : α) : Succeeds (pure value) := ⟨value, yields_pure.2 rfl⟩

theorem Defined.succeeds {action : Except RangeError α} (h : Defined action) :
    Succeeds (liftM action : Converted α) := h

theorem Succeeds.bind {action : Converted α} {next : α → Converted β} (h : Succeeds action)
    (hnext : ∀ value, Yields action value → Succeeds (next value)) : Succeeds (action >>= next) := by
  obtain ⟨value, hvalue⟩ := h
  obtain ⟨result, hresult⟩ := hnext value hvalue
  exact ⟨result, yields_bind.2 ⟨value, hvalue, hresult⟩⟩

end Defined

namespace ParseTree

def Fits (source : SourceText) (tree : ParseTree) : Prop := Defined (source.span tree)

def FitsThroughout (source : SourceText) (tree : ParseTree) : Prop :=
  ∀ part ∈ tree.subtrees, Fits source part

instance (source : SourceText) (tree : ParseTree) : Decidable (FitsThroughout source tree) :=
  inferInstanceAs (Decidable (∀ part ∈ tree.subtrees, Defined (source.span part)))

section Details

variable {source : SourceText} {tree : ParseTree}

theorem FitsThroughout.self (h : FitsThroughout source tree) : Fits source tree :=
  h tree (self_mem_subtrees tree)

theorem FitsThroughout.of_mem {part : ParseTree} (h : FitsThroughout source tree)
    (hmem : part ∈ tree.subtrees) : FitsThroughout source part :=
  fun below hbelow => h below (mem_subtrees_trans hmem hbelow)

theorem FitsThroughout.child {child : ParseTree} (h : FitsThroughout source tree)
    (hmem : child ∈ tree.children) : FitsThroughout source child :=
  h.of_mem (mem_subtrees_of_mem_children hmem (self_mem_subtrees child))

theorem FitsThroughout.child? {field : String} {child : ParseTree} (h : FitsThroughout source tree)
    (hmem : tree.child? field = some child) : FitsThroughout source child :=
  h.child (List.mem_of_find?_eq_some hmem)

private theorem defined_slice (h : Fits source tree) : Defined (source.slice tree) :=
  h.bind fun _ => defined_pure _

private theorem defined_sliceOf? (h : FitsThroughout source tree) (field : String) :
    Defined (source.sliceOf? (tree.child? field)) := by
  cases hchild : tree.child? field with
  | none => exact defined_pure []
  | some child => exact defined_slice (h.child? hchild).self

private theorem defined_className? (h : FitsThroughout source tree) : Defined
    (className? source tree) :=
  (defined_sliceOf? h "name").bind fun _ => defined_pure _

private theorem defined_memberName? (h : FitsThroughout source tree) :
    Defined (memberName? source tree) := by
  unfold memberName?
  split
  · rename_i name hname
    refine Defined.bind ?_ fun _ => defined_pure _
    refine (h.child? hname).self.bind fun span => ?_
    dsimp only
    split
    · exact defined_pure _
    · split
      · exact defined_pure _
      · exact defined_pure _
  · exact defined_pure none

private theorem defined_modifiers (h : FitsThroughout source tree) : Defined
    (modifiers source tree) := by
  refine Defined.bind (Defined.mapM fun child hchild => ?_) fun _ => defined_pure _
  unfold modifier?
  split
  · exact (defined_slice (h.child hchild).self).bind fun _ => defined_pure _
  · exact defined_pure _

private theorem defined_referenceName (h : FitsThroughout source tree) :
    Defined (referenceName source tree) := by
  have htarget : Fits source
      (if tree.type = "generic_type" then (tree.child? "name").getD tree else tree) := by
    split
    · cases hname : tree.child? "name" with
      | none => exact h.self
      | some name => exact (h.child? hname).self
    · exact h.self
  exact (defined_slice htarget).bind fun _ => defined_pure _

private theorem defined_parameterName? (h : FitsThroughout source tree) :
    Defined (parameterName? source tree) := by
  unfold parameterName?
  split
  · rename_i pattern hpattern
    have hchild := (Option.filter_eq_some_iff.1 hpattern).1
    exact (defined_slice (h.child? hchild).self).bind fun _ => defined_pure _
  · exact defined_pure none

private theorem defined_methodProperties (h : FitsThroughout source tree) :
    Defined (methodProperties source tree) := by
  refine ((defined_sliceOf? h "name").bind fun _ => defined_pure _).bind fun isConstructor => ?_
  split
  · refine Defined.bind (Defined.mapM fun parameter hparameter => ?_) fun _ => defined_pure _
    cases hlist : tree.child? "parameters" with
    | none =>
      rw [hlist] at hparameter
      cases hparameter
    | some list =>
      rw [hlist] at hparameter
      exact defined_parameterName? ((h.child? hlist).child (List.mem_of_mem_filter hparameter))
  · exact defined_pure []

private theorem defined_bodyProperties (h : FitsThroughout source tree) :
    Defined (bodyProperties source tree) :=
  Defined.bind (Defined.mapM fun _ hmethod => defined_methodProperties
    (h.child (List.mem_of_mem_filter (List.mem_of_mem_filter hmethod)))) fun _ => defined_pure _

private theorem defined_signatureNames (h : FitsThroughout source tree) :
    Defined (signatureNames source tree) :=
  Defined.bind (Defined.mapM fun _ hsignature => (defined_memberName?
    (h.child (List.mem_of_mem_filter (List.mem_of_mem_filter hsignature)))).bind
      fun _ => defined_pure _) fun _ => defined_pure _

private theorem defined_isMemberPart (h : Fits source tree) (name : Option MemberName) :
    Defined (isMemberPart source name tree) := by
  unfold isMemberPart
  split
  · exact defined_pure false
  · split
    · exact h.bind fun _ => defined_pure _
    · exact defined_pure true

end Details

section Reading

variable {source : SourceText}

def Readable (source : SourceText) (part : Reading × ParseTree) : Prop :=
  ∃ node, Reads source part node

private theorem succeeds_docComments {comment : ParseTree} (h : Fits source comment) :
    Succeeds (docComments source comment) := by
  refine h.succeeds.bind fun span _ => ?_
  dsimp only
  split
  · exact Succeeds.bind ⟨_, yields_liftLogged.2 rfl⟩ fun _ _ => succeeds_pure _
  · exact succeeds_pure []

private theorem succeeds_decoratorStart {tree : ParseTree} (h : Fits source tree)
    (known : Option Nat) :
    Succeeds (decoratorStart source known tree) := by
  cases known with
  | some start => exact succeeds_pure start
  | none => exact h.succeeds.bind fun _ _ => succeeds_pure _

private theorem succeeds_convertAll {container : Container} {docs : List DocComment}
    {decorator : Option Nat} {trees : List ParseTree} (hfits : ∀ tree ∈ trees, Fits source tree)
    (h : ∀ part ∈ childParts source container docs decorator trees, Readable source part) :
    Succeeds (convertAll source container docs decorator trees) := by
  induction trees generalizing docs decorator with
  | nil => rw [convertAll]; exact succeeds_pure []
  | cons child rest ih =>
    have hfirst := hfits child List.mem_cons_self
    have hrest := fun tree hmem => hfits tree (List.mem_cons_of_mem _ hmem)
    rw [childParts] at h
    rw [convertAll]
    split
    · rename_i hcomment
      rw [if_pos hcomment] at h
      refine (succeeds_docComments hfirst).bind fun found hfound => ?_
      rw [yields_docComments hfound] at h
      exact ih hrest h
    · rename_i hcomment
      rw [if_neg hcomment] at h
      split
      · rename_i hdecorator
        rw [if_pos hdecorator] at h
        refine (succeeds_decoratorStart hfirst decorator).bind fun start hstart => ?_
        rw [yields_decoratorStart hstart] at h
        refine Succeeds.bind (h _ List.mem_cons_self) fun first _ => ?_
        exact (ih hrest fun part hpart => h part (List.mem_cons_of_mem _ hpart)).bind
          fun others _ => succeeds_pure _
      · rename_i hdecorator
        rw [if_neg hdecorator] at h
        split
        · rename_i htoken
          rw [if_pos htoken] at h
          exact ih hrest h
        · rename_i htoken
          rw [if_neg htoken] at h
          have hothers := ih hrest fun part hpart => h part (List.mem_cons_of_mem _ hpart)
          split
          · rename_i hmember
            rw [if_pos hmember] at h
            refine Succeeds.bind (h _ List.mem_cons_self) fun first _ => ?_
            exact hothers.bind fun others _ => succeeds_pure _
          · rename_i hmember
            rw [if_neg hmember] at h
            refine Succeeds.bind (h _ List.mem_cons_self) fun first _ => ?_
            exact hothers.bind fun others _ => succeeds_pure _

private theorem succeeds_memberChildren {name : Option MemberName} {trees : List ParseTree}
    (hfits : ∀ tree ∈ trees, Fits source tree)
    (h : ∀ child ∈ trees, (isMemberPart source name child).toOption.getD false = true →
      Readable source (.node, child)) :
    Succeeds (memberChildren source name trees) := by
  induction trees with
  | nil => rw [memberChildren]; exact succeeds_pure []
  | cons child rest ih =>
    have hothers := ih (fun tree hmem => hfits tree (List.mem_cons_of_mem _ hmem))
      fun later hlater => h later (List.mem_cons_of_mem _ hlater)
    rw [memberChildren]
    refine (defined_isMemberPart (hfits child List.mem_cons_self) name).succeeds.bind
      fun isPart hpart => ?_
    split
    · rename_i htrue
      rw [yields_liftExcept, htrue] at hpart
      refine Succeeds.bind (h child List.mem_cons_self (by rw [hpart]; rfl)) fun first _ => ?_
      exact hothers.bind fun others _ => succeeds_pure _
    · exact hothers

private theorem succeeds_convertReferences {isValue : ParseTree → Bool} {trees : List ParseTree}
    (h : ∀ tree ∈ trees.filter isValue, Readable source (.reference, tree)) :
    Succeeds (convertReferences source isValue trees) := by
  induction trees with
  | nil => rw [convertReferences]; exact succeeds_pure []
  | cons child rest ih =>
    rw [convertReferences]
    split
    · rename_i hvalue
      rw [List.filter_cons_of_pos hvalue] at h
      refine Succeeds.bind (h child List.mem_cons_self) fun first _ => ?_
      exact (ih fun later hlater => h later (List.mem_cons_of_mem _ hlater)).bind
        fun others _ => succeeds_pure _
    · rename_i hvalue
      rw [List.filter_cons_of_neg hvalue] at h
      exact ih h

private theorem succeeds_heritageClauses {trees : List ParseTree}
    (h : ∀ tree ∈ (trees.filter (heritageToken? · |>.isSome)).flatMap values,
      Readable source (.reference, tree)) :
    Succeeds (heritageClauses source trees) := by
  induction trees with
  | nil => rw [heritageClauses]; exact succeeds_pure []
  | cons tree rest ih =>
    obtain ⟨type, named, range, field, children⟩ := tree
    rw [heritageClauses]
    split
    · rename_i token htoken
      rw [List.filter_cons_of_pos (by rw [htoken]; rfl), List.flatMap_cons] at h
      refine (succeeds_convertReferences fun value hvalue =>
        h value (List.mem_append_left _ hvalue)).bind fun nodes _ => ?_
      exact (ih fun value hvalue => h value (List.mem_append_right _ hvalue)).bind
        fun others _ => succeeds_pure _
    · rename_i htoken
      rw [List.filter_cons_of_neg (by rw [htoken]; exact Bool.false_ne_true)] at h
      exact ih h

private theorem succeeds_classPart {tree : ParseTree} (hfits : FitsThroughout source tree)
    (hdecorator : tree.type ≠ "decorator")
    (h : ∀ part ∈ classChildParts source tree, Readable source part) :
    Succeeds (classPart source tree) := by
  obtain ⟨type, named, range, field, children⟩ := tree
  rw [classChildParts, if_neg hdecorator] at h
  rw [classPart]
  split
  · rename_i hheritage
    rw [if_pos (by exact hheritage)] at h
    refine (succeeds_heritageClauses fun value hvalue => ?_).bind fun _ _ => succeeds_pure _
    exact h (.reference, value) (List.mem_map.2 ⟨value, hvalue, rfl⟩)
  · rename_i hheritage
    rw [if_neg (by exact hheritage)] at h
    split
    · rename_i hbody
      rw [if_pos (by exact hbody)] at h
      refine (succeeds_convertAll (fun child hchild => (hfits.child hchild).self) h).bind
        fun nodes _ => ?_
      exact (defined_bodyProperties hfits).succeeds.bind fun _ _ => succeeds_pure _
    · exact succeeds_pure _

private theorem succeeds_classParts {trees : List ParseTree}
    (hfits : ∀ tree ∈ trees, FitsThroughout source tree)
    (h : ∀ part ∈ trees.flatMap (classChildParts source), Readable source part) :
    Succeeds (classParts source trees) := by
  induction trees with
  | nil => rw [classParts]; exact succeeds_pure _
  | cons child rest ih =>
    rw [List.flatMap_cons] at h
    have hothers := ih (fun tree hmem => hfits tree (List.mem_cons_of_mem _ hmem))
      fun part hpart => h part (List.mem_append_right _ hpart)
    rw [classParts]
    split
    · rename_i hdecorator
      rw [classChildParts, if_pos hdecorator] at h
      refine Succeeds.bind (h (.node, child) List.mem_cons_self) fun first _ => ?_
      exact hothers.bind fun others _ => succeeds_pure _
    · rename_i hdecorator
      refine (succeeds_classPart (hfits child List.mem_cons_self) hdecorator fun part hpart =>
        h part (List.mem_append_left _ hpart)).bind fun first _ => ?_
      exact hothers.bind fun others _ => succeeds_pure _

private theorem succeeds_interfaceBases {trees : List ParseTree}
    (h : ∀ tree ∈ (trees.filter isBaseClause).flatMap namedChildren,
      Readable source (.reference, tree)) :
    Succeeds (interfaceBases source trees) := by
  induction trees with
  | nil => rw [interfaceBases]; exact succeeds_pure []
  | cons tree rest ih =>
    obtain ⟨type, named, range, field, children⟩ := tree
    rw [interfaceBases]
    split
    · rename_i hclause
      rw [List.filter_cons_of_pos hclause, List.flatMap_cons] at h
      refine (succeeds_convertReferences fun base hbase =>
        h base (List.mem_append_left _ hbase)).bind fun first _ => ?_
      exact (ih fun base hbase => h base (List.mem_append_right _ hbase)).bind
        fun others _ => succeeds_pure _
    · rename_i hclause
      rw [List.filter_cons_of_neg hclause] at h
      exact ih h

private theorem succeeds_interfaceBody {trees : List ParseTree}
    (hfits : ∀ tree ∈ trees, FitsThroughout source tree)
    (h : ∀ body, trees.find? (·.field == some "body") = some body →
      ∀ part ∈ blockParts source .other body, Readable source part) :
    Succeeds (interfaceBody source trees) := by
  induction trees with
  | nil => rw [interfaceBody]; exact succeeds_pure _
  | cons tree rest ih =>
    obtain ⟨type, named, range, field, children⟩ := tree
    have hfirst := hfits _ List.mem_cons_self
    rw [interfaceBody]
    split
    · rename_i hbody
      rw [List.find?_cons_of_pos (by exact hbody)] at h
      refine (defined_signatureNames hfirst).succeeds.bind fun names _ => ?_
      exact (succeeds_convertAll (fun child hchild => (hfirst.child hchild).self)
        (h _ rfl)).bind fun nodes _ => succeeds_pure _
    · rename_i hbody
      rw [List.find?_cons_of_neg (by exact hbody)] at h
      exact ih (fun tree hmem => hfits tree (List.mem_cons_of_mem _ hmem)) h

private theorem readable_of_parts {whole : Reading × ParseTree}
    (hfits : FitsThroughout source whole.2)
    (h : ∀ part ∈ parts source whole, Readable source part) : Readable source whole := by
  obtain ⟨reading, type, named, range, field, children⟩ := whole
  have hchildren : ∀ child ∈ children, FitsThroughout source child :=
    fun child hchild => hfits.child hchild
  have hblock : (∀ part ∈ blockParts source .other (.node type named range field children),
      Readable source part) → Succeeds (convertAll source .other [] none children) :=
    succeeds_convertAll fun child hchild => (hchildren child hchild).self
  cases reading with
  | file =>
    exact hfits.self.succeeds.bind fun span _ => (hblock h).bind fun _ _ => succeeds_pure _
  | reference =>
    change Succeeds (convertReference source _)
    rw [convertReference]
    refine (defined_referenceName hfits).succeeds.bind fun name _ => ?_
    exact hfits.self.succeeds.bind fun span _ => (hblock h).bind fun _ _ => succeeds_pure _
  | member docs decorator =>
    change Succeeds (convertMember source docs decorator _)
    rw [convertMember]
    refine hfits.self.succeeds.bind fun span _ => ?_
    refine (defined_memberName? hfits).succeeds.bind fun name hname => ?_
    refine (defined_modifiers hfits).succeeds.bind fun modifiers _ => ?_
    refine (succeeds_memberChildren (fun child hchild => (hchildren child hchild).self)
      fun child hchild hpart => ?_).bind fun _ _ => succeeds_pure _
    apply h (.node, child)
    refine List.mem_map.2 ⟨child, List.mem_filter.2 ⟨hchild, ?_⟩, rfl⟩
    rw [isPart, yields_liftExcept.1 hname]
    exact hpart
  | node =>
    change Succeeds (convert source _)
    rw [convert]
    rw [parts] at h
    refine hfits.self.succeeds.bind fun span _ => ?_
    split
    · rename_i kind hkind
      rw [if_pos (by dsimp only [ParseTree.type]; rw [hkind]; rfl)] at h
      refine (defined_className? hfits).succeeds.bind fun name _ => ?_
      exact (succeeds_classParts hchildren h).bind fun _ _ => succeeds_pure _
    · rename_i hkind
      have hnone : classKind? type = none := Option.eq_none_iff_forall_ne_some.2 hkind
      rw [if_neg (by dsimp only [ParseTree.type]; rw [hnone]; exact Bool.false_ne_true)] at h
      split
      · rename_i hinterface
        rw [if_pos (by exact hinterface)] at h
        refine (defined_sliceOf? hfits "name").succeeds.bind fun name _ => ?_
        refine (succeeds_interfaceBases fun base hbase => ?_).bind fun bases _ => ?_
        · exact h (.reference, base)
            (List.mem_append_left _ (List.mem_map.2 ⟨base, hbase, rfl⟩))
        · refine (succeeds_interfaceBody hchildren fun body hbody part hpart => ?_).bind
            fun _ _ => succeeds_pure _
          have hfound : (ParseTree.node type named range field children).child? "body" =
              some body := hbody
          apply h part (List.mem_append_right _ _)
          rw [hfound]
          exact hpart
      · rename_i hinterface
        rw [if_neg (by exact hinterface)] at h
        exact (hblock h).bind fun _ _ => succeeds_pure _

theorem readable_of_fits (whole : Reading × ParseTree) (hfits : FitsThroughout source whole.2) :
    Readable source whole := by
  induction whole using parts_induction source with
  | h whole ih =>
    refine readable_of_parts hfits fun part hpart => ?_
    exact ih part hpart (hfits.of_mem (mem_subtrees_of_mem_parts hpart))

end Reading
end ParseTree
end OverrideLint
