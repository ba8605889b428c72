import OverrideLint.Command.Source
import OverrideLint.Proofs.DocComment.Extent
import OverrideLint.Proofs.ParseTree.Reading

/-! Where the members of a parsed file lie. Byte offsets of the text become character
offsets of the text, so a member starts within the text, and each of its comments was
read where it stands. -/
namespace OverrideLint

namespace OffsetMap

private theorem le_of_mem_byteIndices {index found : Nat} {text : Text}
    (h : found ∈ byteIndices index text) : found ≤ index + text.length := by
  induction text generalizing index with
  | nil => exact Nat.le_of_eq (List.mem_singleton.1 h)
  | cons c rest ih =>
    rw [List.length_cons]
    rcases List.mem_append.1 h with h | h
    · have := (List.mem_replicate.1 h).2
      omega
    · have := ih h
      omega

private theorem signedOffset?_le {text : Text} {offset found : Int}
    (h : (ofText text).signedOffset? offset = some found)
    (hoffset : offset ≤ (Utf8.encode text).length) : found ≤ text.length := by
  have htable (n : Nat) (hn : n ∈ byteIndices 0 text) : Int.ofNat n ≤ text.length := by
    have := le_of_mem_byteIndices hn
    exact Int.ofNat_le.2 (by omega)
  unfold ofText at h
  split at h
  · rename_i hlength
    rw [hlength]
    cases offset with
    | ofNat n =>
      cases h
      exact hoffset
    | negSucc n =>
      cases h
      exact hoffset
  · cases offset with
    | ofNat n =>
      obtain ⟨index, hindex, rfl⟩ := Option.map_eq_some_iff.1 h
      exact htable index (List.mem_of_getElem? hindex)
    | negSucc n =>
      obtain ⟨index, hindex, rfl⟩ := Option.map_eq_some_iff.1 h
      exact htable index (List.mem_reverse.1 (List.mem_of_getElem? hindex))

private theorem resolve_le {text : Text} {offset found : Int}
    (h : (ofText text).resolve offset = .ok found)
    (hoffset : offset ≤ (Utf8.encode text).length) : found ≤ text.length := by
  unfold resolve at h
  split at h
  · cases h
  · split at h
    · rename_i known hknown
      cases h
      exact signedOffset?_le hknown hoffset
    · cases h

theorem span_within {text : Text} {range : ByteRange} {span : Span}
    (h : (ofText text).span range = .ok span) (hstop : range.stop ≤ (Utf8.encode text).length) :
    span.stop ≤ text.length := by
  unfold OffsetMap.span at h
  cases hfrom : (ofText text).resolve range.start with
  | error error =>
    rw [hfrom] at h
    cases h
  | ok start =>
    cases hto : (ofText text).resolve range.stop with
    | error error =>
      rw [hfrom, hto] at h
      cases h
    | ok stop =>
      have hle := resolve_le hto hstop
      rw [hfrom, hto] at h
      change (Span.ofBounds start stop).mapError RangeError.invalid = _ at h
      unfold Span.ofBounds at h
      split at h
      · cases h
        dsimp only
        omega
      · cases h

end OffsetMap

def Parser.EndsWithin (parser : Parser) : Prop :=
  ∀ language text, ∀ tree ∈ (parser language text).root.subtrees,
    tree.range.stop ≤ (Utf8.encode text).length

namespace ParseTree

variable {source : SourceText}

def EndsWithin (source : SourceText) (tree : ParseTree) : Prop :=
  ∀ span, source.span tree = .ok span → span.stop ≤ source.text.length

theorem docsOf_eq (tree : ParseTree) :
    docsOf source tree = match source.span tree with
      | .ok span =>
        let text := Text.slice source.text span.start span.stop
        if DocComment.isDocComment text then [(DocComment.ofText text span.start).value] else []
      | .error _ => [] := by
  cases hspan : source.span tree with
  | error error =>
    rw [docsOf, docComments, hspan]
    rfl
  | ok span =>
    apply yields_docComments
    rw [docComments, yields_bind]
    refine ⟨span, hspan, ?_⟩
    dsimp only
    split
    · exact yields_bind.2 ⟨_, yields_liftLogged.2 rfl, yields_pure.2 rfl⟩
    · exact yields_pure.2 rfl

theorem mem_docsOf {tree : ParseTree} {comment : DocComment} (h : comment ∈ docsOf source tree) :
    ∃ span, source.span tree = .ok span ∧
      DocComment.isDocComment (Text.slice source.text span.start span.stop) = true ∧
        comment =
          (DocComment.ofText (Text.slice source.text span.start span.stop) span.start).value := by
  rw [docsOf_eq] at h
  split at h
  · rename_i span hspan
    dsimp only at h
    split at h
    · rename_i hdoc
      exact ⟨span, hspan, hdoc, List.mem_singleton.1 h⟩
    · cases h
  · cases h

theorem span_of_mem_docsOf {tree : ParseTree} (hends : EndsWithin source tree)
    {comment : DocComment} (h : comment ∈ docsOf source tree) :
    source.span tree = .ok comment.span := by
  obtain ⟨span, hspan, _, rfl⟩ := mem_docsOf h
  have hstop := hends span hspan
  have hle := span.start_le_stop
  rw [hspan, DocComment.span_ofText]
  congr 1
  ext
  · rfl
  · dsimp only
    rw [Text.length_slice]
    omega

theorem isSlice_docsOf {tree : ParseTree} (h : EndsWithin source tree) {comment : DocComment}
    (hmem : comment ∈ docsOf source tree) : comment.IsSlice source.text := by
  have hown := span_of_mem_docsOf h hmem
  obtain ⟨span, hspan, _, hread⟩ := mem_docsOf hmem
  cases hspan.symm.trans hown
  exact ⟨h _ hown, hread.symm⟩

private theorem startOf?_le {tree : ParseTree} (h : EndsWithin source tree) {start : Nat}
    (hstart : startOf? source tree = some start) : start ≤ source.text.length := by
  cases hspan : source.span tree with
  | error error =>
    rw [startOf?, hspan] at hstart
    cases hstart
  | ok span =>
    rw [startOf?, hspan] at hstart
    cases hstart
    exact Nat.le_trans span.start_le_stop (h span hspan)

/-- The comments of a member were read where they stand, and its first decorator starts
within the text. -/
def Reading.Within (text : Text) : Reading → Prop
  | .member docs decorator =>
    (∀ comment ∈ docs, comment.IsSlice text) ∧ ∀ start, decorator = some start → start ≤ text.length
  | _ => True

theorem Reading.within_bare (text : Text) : (Reading.member [] none).Within text := by
  constructor
  · exact List.forall_mem_nil _
  · intro start hstart
    cases hstart

private theorem within_childParts {container : Container} {docs : List DocComment}
    {decorator : Option Nat} {trees : List ParseTree}
    (hends : ∀ tree ∈ trees, EndsWithin source tree)
    (hwithin : (Reading.member docs decorator).Within source.text) :
    ∀ part ∈ childParts source container docs decorator trees, part.1.Within source.text := by
  induction trees generalizing docs decorator with
  | nil => exact List.forall_mem_nil _
  | cons child rest ih =>
    have hfirst := hends child List.mem_cons_self
    have hrest := fun tree hmem => hends tree (List.mem_cons_of_mem _ hmem)
    obtain ⟨hdocs, hdecorator⟩ := hwithin
    rw [childParts]
    split
    · refine ih hrest ⟨?_, hdecorator⟩
      intro comment hcomment
      rcases List.mem_append.1 hcomment with hcomment | hcomment
      · exact hdocs comment hcomment
      · exact isSlice_docsOf hfirst hcomment
    · split
      · refine List.forall_mem_cons.2 ⟨trivial, ih hrest ⟨hdocs, ?_⟩⟩
        intro start hstart
        rcases Option.or_eq_some_iff.1 hstart with hknown | ⟨_, hown⟩
        · exact hdecorator start hknown
        · exact startOf?_le hfirst hown
      · split
        · exact ih hrest ⟨hdocs, hdecorator⟩
        · refine List.forall_mem_cons.2 ⟨?_, ih hrest (Reading.within_bare _)⟩
          split
          · exact ⟨hdocs, hdecorator⟩
          · trivial

private theorem within_blockParts {container : Container} {block : ParseTree}
    (hends : ∀ tree ∈ block.subtrees, EndsWithin source tree) :
    ∀ part ∈ blockParts source container block, part.1.Within source.text :=
  within_childParts (fun child hchild => hends child
    (mem_subtrees_of_mem_children hchild (self_mem_subtrees child))) (Reading.within_bare _)

private theorem within_parts {whole : Reading × ParseTree}
    (hends : ∀ tree ∈ whole.2.subtrees, EndsWithin source tree) :
    ∀ part ∈ parts source whole, part.1.Within source.text := by
  obtain ⟨reading, tree⟩ := whole
  have hbelow : ∀ child ∈ tree.children, ∀ below ∈ child.subtrees, EndsWithin source below :=
    fun child hchild below hmem => hends below (mem_subtrees_of_mem_children hchild hmem)
  intro part hpart
  cases reading with
  | file => exact within_blockParts hends part hpart
  | reference => exact within_blockParts hends part hpart
  | member docs decorator =>
    obtain ⟨_, _, rfl⟩ := List.mem_map.1 hpart
    trivial
  | node =>
    rw [parts] at hpart
    split at hpart
    · obtain ⟨child, hchild, hpart⟩ := List.mem_flatMap.1 hpart
      rw [classChildParts] at hpart
      split at hpart
      · rw [List.mem_singleton.1 hpart]
        trivial
      · split at hpart
        · obtain ⟨_, _, rfl⟩ := List.mem_map.1 hpart
          trivial
        · split at hpart
          · exact within_blockParts (hbelow child hchild) part hpart
          · cases hpart
    · split at hpart
      · rcases List.mem_append.1 hpart with hpart | hpart
        · obtain ⟨_, _, rfl⟩ := List.mem_map.1 hpart
          trivial
        · cases hbody : tree.child? "body" with
          | none =>
            rw [hbody] at hpart
            cases hpart
          | some body =>
            rw [hbody] at hpart
            exact within_blockParts (hbelow body (List.mem_of_find?_eq_some hbody)) part hpart
      · exact within_blockParts hends part hpart

theorem within_allParts {whole : Reading × ParseTree}
    (hends : ∀ tree ∈ whole.2.subtrees, EndsWithin source tree) :
    ∀ part ∈ allParts source whole, part.1.Within source.text ∧ EndsWithin source part.2 := by
  induction whole using parts_induction source with
  | h whole ih =>
    intro part hpart
    rw [allParts_eq] at hpart
    obtain ⟨direct, hdirect, hpart⟩ := List.mem_flatMap.1 hpart
    have hbelow := mem_subtrees_of_mem_parts hdirect
    rcases List.mem_cons.1 hpart with rfl | hpart
    · exact ⟨within_parts hends part hdirect, hends part.2 hbelow⟩
    · exact ih direct hdirect (fun tree htree => hends tree (mem_subtrees_trans hbelow htree))
        part hpart

theorem Reads.start_le {docs : List DocComment} {decorator : Option Nat} {tree : ParseTree}
    {node : Node} (h : Reads source (.member docs decorator, tree) node)
    (hends : EndsWithin source tree) : node.span.start ≤ source.text.length := by
  obtain ⟨span, _, _, hspan, _, _, _, hnode, _⟩ := reads_member h
  have hwithin : span.start ≤ source.text.length :=
    Nat.le_trans span.start_le_stop (hends span hspan)
  rw [hnode]
  unfold memberSpan
  split
  · split
    · rename_i hlt
      exact Nat.le_of_lt (Nat.lt_of_lt_of_le hlt hwithin)
    · exact hwithin
  · exact hwithin

end ParseTree

namespace SourceFile

theorem yields_parse {parser : Parser} {file : String} {text : Text} {source : SourceFile}
    (h : Yields (parse parser file text) source) :
    source.file = file ∧ source.text = text ∧
      Yields (ParseTree.convertRoot (.ofText file text) (parser (Language.ofFile file) text).root)
        source.root := by
  unfold parse ofParsed at h
  split at h
  · simp only [yields_bind, yields_pure, yields_liftLogged] at h
    obtain ⟨_, _, root, hroot, rfl⟩ := h
    exact ⟨rfl, rfl, hroot⟩
  · simp only [yields_bind, yields_pure] at h
    obtain ⟨root, hroot, rfl⟩ := h
    exact ⟨rfl, rfl, hroot⟩

/-- The members of a parsed file start within its text, and their comments were read where
they stand. -/
theorem placed_of_parse {parser : Parser} (hparser : parser.EndsWithin) {file : String}
    {text : Text} {source : SourceFile} (h : Yields (parse parser file text) source) :
    ∀ visited ∈ source.root.memberVisits,
      (∀ comment ∈ visited.2.docs, comment.IsSlice source.text) ∧
        visited.1.node.span.start ≤ source.text.length := by
  obtain ⟨_, rfl, hroot⟩ := yields_parse h
  intro visited hvisited
  have hreads : ParseTree.Reads (.ofText file source.text)
      (.file, (parser (Language.ofFile file) source.text).root) source.root := hroot
  have hends : ∀ tree ∈ (parser (Language.ofFile file) source.text).root.subtrees,
      ParseTree.EndsWithin (.ofText file source.text) tree :=
    fun tree htree _ hspan => OffsetMap.span_within hspan (hparser _ _ tree htree)
  obtain ⟨visit, hvisit, hpair⟩ := List.mem_filterMap.1 hvisited
  obtain ⟨member, hmember, rfl⟩ := Option.map_eq_some_iff.1 hpair
  rw [Node.descendants_eq] at hvisit
  obtain ⟨⟨reading, tree⟩, hpart, hread⟩ := hreads.exists_part hvisit
  obtain ⟨hwithin, htree⟩ := ParseTree.within_allParts hends _ hpart
  have hkind := hread.member?_isSome
  rw [hmember] at hkind
  cases reading with
  | file => cases hkind
  | node => cases hkind
  | reference => cases hkind
  | member docs decorator =>
    obtain ⟨_, _, _, _, _, _, _, _, hrole⟩ := ParseTree.reads_member hread
    rw [Node.member?, hrole] at hmember
    cases hmember
    exact ⟨hwithin.1, hread.start_le htree⟩

end SourceFile
end OverrideLint
