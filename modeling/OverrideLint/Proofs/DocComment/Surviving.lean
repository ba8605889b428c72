import OverrideLint.Proofs.DocComment.Repair
import OverrideLint.Proofs.Edit.Compatible
import Mathlib.Algebra.BigOperators.Group.List.Basic
import Mathlib.Algebra.Ring.Int.Defs
import Mathlib.Data.List.Pairwise

/-! The tags of a comment in which some were cut out and others renamed. Read again, it has
the tags that stay and no others, each moved by as much as the text before it has grown. -/
namespace OverrideLint

namespace Edit

private theorem writtenAt_of_perm {a b : List Edit} (hperm : a.Perm b)
    (hstarts : a.Pairwise fun x y => x.span.start ≠ y.span.start) (offset : Nat) :
    writtenAt a offset = writtenAt b offset := by
  have hsame : a.filter (·.span.start == offset) = b.filter (·.span.start == offset) := by
    have hfiltered := hperm.filter (·.span.start == offset)
    have hat : ∀ edit ∈ a.filter (·.span.start == offset), edit.span.start = offset :=
      fun edit hmem => by simpa using (List.mem_filter.1 hmem).2
    have hapart := hstarts.filter (·.span.start == offset)
    rcases hstarting : a.filter (·.span.start == offset) with _ | ⟨first, _ | ⟨second, rest⟩⟩
    · rw [hstarting] at hfiltered ⊢
      exact hfiltered.nil_eq
    · rw [hstarting] at hfiltered ⊢
      exact (List.perm_singleton.1 hfiltered.symm).symm
    · rw [hstarting] at hat hapart
      have hne := (List.pairwise_cons.1 hapart).1 second List.mem_cons_self
      have hsecond : second ∈ first :: second :: rest := by simp
      exact absurd ((hat first List.mem_cons_self).trans (hat second hsecond).symm) hne
  rw [writtenAt, writtenAt, hsame]

theorem splice_of_perm {a b : List Edit} (hperm : a.Perm b)
    (hstarts : a.Pairwise fun x y => x.span.start ≠ y.span.start) (source : Text) :
    splice a source = splice b source := by
  unfold splice
  generalize 0 = offset
  induction source generalizing offset with
  | nil => exact writtenAt_of_perm hperm hstarts offset
  | cons c rest ih =>
    rw [spliceFrom, spliceFrom, writtenAt_of_perm hperm hstarts, hperm.any_eq, ih]

end Edit

namespace DocComment

def Amendment.growth (tag : DocTag) : Amendment → Int
  | keep => 0
  | rename => overrideName.length - tag.nameSpan.width
  | cut => -tag.span.width

theorem Amendment.name?_eq_none_iff {amendment : Amendment} (name : Text) :
    amendment.name? name = none ↔ amendment = .cut := by
  cases amendment <;> simp [name?]

def amendments (act : DocTag → Amendment) (tags : List DocTag) : List Edit :=
  tags.filterMap fun tag => (act tag).edit? tag

def shiftBefore (act : DocTag → Amendment) (tags : List DocTag) (tag : DocTag) : Int :=
  ((tags.filter (·.span.start < tag.span.start)).map fun other => (act other).growth other).sum

/-- A tag that stays, and the same tag in the amended comment. -/
structure Moved (act : DocTag → Amendment) (tags : List DocTag) (before after : DocTag) : Prop where
  name : (act before).nameAfter before = some after.name
  start : (after.span.start : Int) = before.span.start + shiftBefore act tags before
  nameStart : (after.nameSpan.start : Int) = before.nameSpan.start + shiftBefore act tags before
  nameStop : (after.nameSpan.stop : Int) =
    before.nameSpan.stop + shiftBefore act tags before + (act before).growth before
  stop : (after.span.stop : Int) =
    before.span.stop + shiftBefore act tags before + (act before).growth before

variable {act : DocTag → Amendment}

section Moving

private theorem length_amendItem (act : DocTag → Amendment) (offset : Nat) (name run : Text) :
    ((amendItem act offset (.tag name run)).length : Int) =
      (Item.tag name run).render.length +
        (act (DocTag.ofSegment offset name run)).growth (DocTag.ofSegment offset name run) := by
  have htrim := congrArg List.length (Text.trimRight_append_trailing run)
  rw [List.length_append] at htrim
  rw [amendItem]
  cases act (DocTag.ofSegment offset name run) with
  | keep => simp [Amendment.name?, Amendment.growth, Item.render]
  | rename =>
    simp only [Amendment.name?, Amendment.growth, Item.render, DocTag.ofSegment, Span.width,
      List.cons_append, List.length_cons, List.length_append, String.length_toList]
    omega
  | cut =>
    simp only [Amendment.name?, Amendment.growth, Item.render, DocTag.ofSegment, Span.width,
      List.cons_append, List.length_cons, List.length_append]
    omega

private theorem moved_ofSegment {tags : List DocTag} {offset place : Nat} {name newName run : Text}
    (hname : (act (DocTag.ofSegment offset name run)).name? name = some newName)
    (hplace : (place : Int) = offset + shiftBefore act tags (DocTag.ofSegment offset name run)) :
    Moved act tags (DocTag.ofSegment offset name run) (DocTag.ofSegment place newName run) := by
  have hgrowth : (act (DocTag.ofSegment offset name run)).nameAfter
        (DocTag.ofSegment offset name run) = some (String.ofList newName) ∧
      (newName.length : Int) = name.length +
        (act (DocTag.ofSegment offset name run)).growth (DocTag.ofSegment offset name run) := by
    cases hact : act (DocTag.ofSegment offset name run) with
    | keep =>
      rw [hact] at hname
      cases hname
      exact ⟨rfl, (Int.add_zero _).symm⟩
    | rename =>
      rw [hact] at hname
      cases hname
      refine ⟨congrArg some String.ofList_toList.symm, ?_⟩
      simp only [Amendment.growth, DocTag.ofSegment, Span.width, String.length_toList]
      omega
    | cut =>
      rw [hact] at hname
      cases hname
  obtain ⟨hnameAfter, hgrowth⟩ := hgrowth
  have hstart : (DocTag.ofSegment offset name run).span.start = offset := rfl
  have hnameStop : (DocTag.ofSegment offset name run).nameSpan.stop = offset + 1 + name.length := rfl
  have hstop : (DocTag.ofSegment offset name run).span.stop =
      offset + 1 + name.length + (Text.trimRight run).length := rfl
  refine ⟨hnameAfter, hplace, ?_, ?_, ?_⟩
  · have hnameStart : (DocTag.ofSegment offset name run).nameSpan.start = offset + 1 := rfl
    rw [hnameStart]
    show ((place + 1 : Nat) : Int) = _
    omega
  · rw [hnameStop]
    show ((place + 1 + newName.length : Nat) : Int) = _
    omega
  · rw [hstop]
    show ((place + 1 + newName.length + (Text.trimRight run).length : Nat) : Int) = _
    omega

private theorem shiftBefore_append {front back : List DocTag} {tag : DocTag}
    (hfront : ∀ earlier ∈ front, earlier.span.start < tag.span.start)
    (hback : ∀ later ∈ back, tag.span.start ≤ later.span.start) :
    shiftBefore act (front ++ back) tag =
      (front.map fun earlier => (act earlier).growth earlier).sum := by
  have hkept : front.filter (·.span.start < tag.span.start) = front := by
    apply List.filter_eq_self.2
    intro earlier hmem
    exact decide_eq_true (hfront earlier hmem)
  have hgone : back.filter (·.span.start < tag.span.start) = [] := by
    apply List.filter_eq_nil_iff.2
    intro later hmem
    have := hback later hmem
    simp only [decide_eq_true_eq]
    omega
  rw [shiftBefore, List.filter_append, hkept, hgone, List.append_nil]

private theorem forall₂_amendedTags (act : DocTag → Amendment) (front : List DocTag)
    (offset place : Nat) (items : List Item)
    (hfront : ∀ earlier ∈ front, earlier.span.start < offset)
    (hplace : (place : Int) =
      offset + (front.map fun earlier => (act earlier).growth earlier).sum) :
    List.Forall₂ (Moved act (front ++ itemTags offset items))
      ((itemTags offset items).filter (act · ≠ .cut)) (amendedTags act offset place items) := by
  induction items generalizing front offset place with
  | nil => exact .nil
  | cons item items ih =>
    cases item with
    | char c =>
      apply ih
      · intro earlier hmem
        exact Nat.lt_succ_of_lt (hfront earlier hmem)
      · show ((place + 1 : Nat) : Int) = (offset + 1 : Nat) + _
        omega
    | tag name run =>
      have hpos : 0 < (Item.tag name run).render.length := by simp [Item.render]
      have hrest := ih (front ++ [DocTag.ofSegment offset name run])
        (offset + (Item.tag name run).render.length)
        (place + (amendItem act offset (.tag name run)).length) (by
          intro earlier hmem
          rcases List.mem_append.1 hmem with hmem | hmem
          · have := hfront earlier hmem
            omega
          · rw [List.mem_singleton.1 hmem]
            exact Nat.lt_add_of_pos_right hpos) (by
          have := length_amendItem act offset name run
          rw [List.map_append, List.sum_append, List.map_singleton, List.sum_singleton]
          omega)
      have hshift : shiftBefore act (front ++ itemTags offset (.tag name run :: items))
          (DocTag.ofSegment offset name run) =
            (front.map fun earlier => (act earlier).growth earlier).sum := by
        apply shiftBefore_append hfront
        intro later hmem
        exact (itemTags_within hmem).1
      rw [List.append_assoc] at hrest
      rw [itemTags, amendedTags]
      cases hname : (act (DocTag.ofSegment offset name run)).name? name with
      | some newName =>
        have hstays : act (DocTag.ofSegment offset name run) ≠ .cut := by
          rw [Ne, ← Amendment.name?_eq_none_iff name, hname]
          exact Option.some_ne_none newName
        rw [List.filter_cons_of_pos (by simpa using hstays)]
        refine .cons (moved_ofSegment hname ?_) hrest
        rw [← itemTags, hshift]
        exact hplace
      | none =>
        rw [List.filter_cons_of_neg (by simp [(Amendment.name?_eq_none_iff name).1 hname])]
        exact hrest

end Moving

section Applying

variable {tags : List DocTag}

private theorem mem_amendments {edit : Edit} :
    edit ∈ amendments act tags ↔ ∃ tag ∈ tags, (act tag).edit? tag = some edit :=
  List.mem_filterMap

private theorem pairwise_amendments (act : DocTag → Amendment)
    (hplaced : ∀ tag ∈ tags, tag.WellPlaced)
    (hordered : tags.Pairwise fun a b => a.span.stop ≤ b.span.start) :
    (amendments act tags).Pairwise fun a b =>
      a.span.start < a.span.stop ∧ a.span.stop ≤ b.span.start := by
  apply List.pairwise_filterMap.2
  refine hordered.imp_of_mem ?_
  intro a b ha hb hle edit hedit edit' hedit'
  have hspan := Amendment.span_edit? hedit (hplaced a ha)
  have hspan' := Amendment.span_edit? hedit' (hplaced b hb)
  omega

private theorem applied_amendments (act : DocTag → Amendment) {text : Text}
    (hplaced : ∀ tag ∈ tags, tag.WellPlaced)
    (hordered : tags.Pairwise fun a b => a.span.stop ≤ b.span.start)
    (hwithin : ∀ tag ∈ tags, tag.span.stop ≤ text.length) :
    (applyEdits text (amendments act tags)).applied.Perm (amendments act tags) := by
  have hpairwise := pairwise_amendments act hplaced hordered
  have hfree : ∀ a ∈ amendments act tags, ∀ b ∈ amendments act tags, a ≠ b →
      a.conflicts b = false := by
    have hsymm : Std.Symm fun a b : Edit => a.conflicts b = false :=
      ⟨fun a b h => (Edit.conflicts_comm b a).trans h⟩
    have hapart : (amendments act tags).Pairwise fun a b => a.conflicts b = false :=
      hpairwise.imp fun h => Edit.conflicts_eq_false_of_le h.1 h.2
    exact fun a ha b hb hne => hapart.forall ha hb hne
  have hnodup : (amendments act tags).Nodup := by
    refine hpairwise.imp ?_
    rintro a b hab rfl
    omega
  have hin : ∀ edit ∈ amendments act tags, edit.span.stop ≤ text.length := by
    intro edit hedit
    obtain ⟨tag, htag, hedit⟩ := mem_amendments.1 hedit
    exact Nat.le_trans (Amendment.span_edit? hedit (hplaced tag htag)).2.2 (hwithin tag htag)
  have hmem := (applyEdits_of_compatible hin fun a ha b hb hne => .inl (hfree a ha b hb hne)).2
  apply (List.perm_ext_iff_of_nodup
    (applyEdits_spliced text (amendments act tags)).descending.nodup hnodup).2
  intro edit
  rw [hmem edit]
  constructor
  · exact And.left
  · intro hedit
    refine ⟨hedit, ?_⟩
    intro deletion hdeletion hswallowed
    have hapart := hfree edit hedit deletion hdeletion hswallowed.ne.symm
    rw [hswallowed.conflicts] at hapart
    cases hapart

private theorem splice_eq_splicePart {edits : List Edit} {text : Text}
    (h : ∀ edit ∈ edits, edit.span.start < text.length) :
    Edit.splice edits text = Edit.splicePart edits 0 text := by
  have hpart := Edit.spliceFrom_part edits 0 text []
  have hend : Edit.writtenAt edits (0 + text.length) = [] := by
    apply Edit.writtenAt_eq_nil
    intro edit hedit
    have := h edit hedit
    omega
  rw [List.append_nil, Edit.spliceFrom, hend, List.append_nil] at hpart
  exact hpart

end Applying

/-- Whichever tags of a comment are cut out or renamed, the comment is read again and has
exactly the tags that stay, under their old or their new names and moved by the change of
length before them. -/
theorem parseTags_amended {text : Text} {tags : List DocTag} (h : parseTags text = .ok tags)
    (act : DocTag → Amendment) :
    ∃ after,
      parseTags (Edit.splice (amendments act tags) text) = .ok after ∧
      List.Forall₂ (Moved act tags) (tags.filter (act · ≠ .cut)) after ∧
      (applyEdits text (amendments act tags)).text = Edit.splice (amendments act tags) text := by
  obtain ⟨items, hreads, rfl⟩ := parseTags_eq_ok_iff_reads.1 h
  have hplaced : ∀ tag ∈ itemTags 3 items, tag.WellPlaced :=
    fun tag hmem => itemTags_wellPlaced hreads.name_ne_nil hmem
  have hordered := pairwise_itemTags 3 items
  have hwithin : ∀ tag ∈ itemTags 3 items, tag.span.stop ≤ text.length := by
    intro tag hmem
    have hstop := (itemTags_within hmem).2
    have hlength := congrArg List.length hreads.text_eq
    simp only [List.length_append, List.length_cons, List.length_nil] at hlength
    omega
  have hspliced := applyEdits_spliced text (amendments act (itemTags 3 items))
  have hperm := applied_amendments act hplaced hordered hwithin
  generalize (applyEdits text (amendments act (itemTags 3 items))) = result at hspliced hperm
  have hspan : ∀ edit ∈ result.applied,
      edit.span.start < edit.span.stop ∧ edit.span.stop ≤ text.length := by
    intro edit hedit
    obtain ⟨tag, htag, hedit⟩ := mem_amendments.1 (hperm.mem_iff.1 hedit)
    have hspan := Amendment.span_edit? hedit (hplaced tag htag)
    exact ⟨hspan.2.1, Nat.le_trans hspan.2.2 (hwithin tag htag)⟩
  have hsame : Edit.splice (amendments act (itemTags 3 items)) text =
      Edit.splice result.applied text := by
    apply Edit.splice_of_perm hperm.symm
    refine (pairwise_amendments act hplaced hordered).imp ?_
    intro a b hab
    omega
  have hamends : Amends result.applied act 0 (0 + text.length) (itemTags (0 + 3) items) := by
    refine ⟨?_, ?_⟩
    · intro tag htag edit hedit
      exact hperm.mem_iff.2 (mem_amendments.2 ⟨tag, htag, hedit⟩)
    · intro edit hedit _
      exact mem_amendments.1 (hperm.mem_iff.1 hedit)
  obtain ⟨after, hafter, htags⟩ := reads_amend act hreads 3
  refine ⟨itemTags 3 after, parseTags_eq_ok_iff_reads.2 ⟨after, ?_, rfl⟩, ?_, ?_⟩
  · rw [hsame, splice_eq_splicePart fun edit hedit =>
      Nat.lt_of_lt_of_le (hspan edit hedit).1 (hspan edit hedit).2,
      splicePart_comment hspliced.descending hreads hamends]
    exact hafter
  · rw [htags]
    exact forall₂_amendedTags act [] 3 3 items nofun (Int.add_zero 3).symm
  · rw [hsame, hspliced.text_eq]

def mixedComment : Text := "/**  @overrides a\n * @see b @override c */".toList

def mixedTags : List DocTag :=
  [⟨"overrides", ⟨6, 15, by decide⟩, ⟨5, 17, by decide⟩⟩,
    ⟨"see", ⟨22, 25, by decide⟩, ⟨21, 27, by decide⟩⟩,
    ⟨"override", ⟨29, 37, by decide⟩, ⟨28, 39, by decide⟩⟩]

def mixedAct (tag : DocTag) : Amendment :=
  if tag.name = "overrides" then .rename else if tag.name = "override" then .cut else .keep

theorem parseTags_amended_mixed :
    parseTags mixedComment = .ok mixedTags ∧
      ∃ after,
        parseTags "/**  @override a\n * @see b  */".toList = .ok after ∧
        List.Forall₂ (Moved mixedAct mixedTags) (mixedTags.take 2) after := by
  have hread : parseTags mixedComment = .ok mixedTags := by decide +kernel
  have htext : Edit.splice (amendments mixedAct mixedTags) mixedComment =
      "/**  @override a\n * @see b  */".toList := by
    decide +kernel
  have hstay : mixedTags.filter (mixedAct · ≠ .cut) = mixedTags.take 2 := by decide +kernel
  obtain ⟨after, hafter, hmoved, -⟩ := parseTags_amended hread mixedAct
  rw [htext] at hafter
  rw [hstay] at hmoved
  exact ⟨hread, after, hafter, hmoved⟩

end DocComment
end OverrideLint
