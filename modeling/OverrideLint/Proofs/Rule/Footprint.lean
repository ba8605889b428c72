import OverrideLint.Proofs.Rule.Harmony

/-! What the repairs of a file may touch. Whichever of its diagnostics are repaired, only
tags meant to be the override tag are taken away, and comments that hold nothing besides
such a tag; code, descriptions and other tags stay. -/
namespace OverrideLint

open OverrideTag

instance : Membership Nat Span where
  mem span offset := span.start ≤ offset ∧ offset < span.stop

theorem Span.mem_iff {span : Span} {offset : Nat} :
    offset ∈ span ↔ span.start ≤ offset ∧ offset < span.stop :=
  Iff.rfl

theorem Edit.covers_iff {edit : Edit} {offset : Nat} :
    edit.covers offset = true ↔ offset ∈ edit.span := by
  rw [covers, Bool.and_eq_true, decide_eq_true_eq, decide_eq_true_eq, Span.mem_iff]

def FixResult.Removes (result : FixResult) (offset : Nat) : Prop :=
  ∃ edit ∈ result.applied, edit.covers offset = true

structure SourceFile.Documented (source : SourceFile) : Prop where
  isSlice : ∀ visited ∈ source.root.memberVisits, ∀ comment ∈ visited.2.docs,
    comment.IsSlice source.text
  disjoint : (source.root.memberVisits.flatMap (·.2.docs)).Pairwise fun a b =>
    a.span.overlaps b.span = false

/-- A comment of a member whose only tag repeats an override tag of that member, with
nothing else between its delimiters but stars and blanks. -/
structure BareDuplicate (text : Text) (docs : List DocComment) (comment : DocComment)
    (tag : DocTag) : Prop where
  only : comment.tags = [tag]
  intended : isIntended tag.name = true
  repeats : ∃ before after, TagScan.occurrences docs = before ++ (comment, tag) :: after ∧
    ∃ earlier ∈ before, isIntended earlier.2.name = true
  bare : ∀ offset ∈ comment.span, offset ∉ tag.span → ∃ c, text[offset]? = some c ∧
    ((offset = comment.span.start ∨ offset + 1 = comment.span.stop) ∧ c = '/' ∨
      c = '*' ∨ Text.isBlank c = true)

def WhollyDeleted (source : SourceFile) (result : FixResult) (comment : DocComment) : Prop :=
  ∃ visited ∈ source.root.memberVisits, ∃ tag,
    BareDuplicate source.text visited.2.docs comment tag ∧
      Edit.delete (wholeSpan source.text comment) ∈ result.applied

structure TouchesOnlyDocs (source : SourceFile) (result : FixResult) : Prop where
  /-- The new text is one pass over the old one, without the characters removed. -/
  text_eq : result.text = Edit.splice result.applied source.text
  apart : result.applied.Pairwise fun a b => a.span.overlaps b.span = false
  /-- New text is a comment before a member, or a name in place of another. -/
  written : ∀ edit ∈ result.applied, edit.text ≠ [] → ∃ visited ∈ source.root.memberVisits,
    edit = .insert visited.1.node.span.start overrideComment ∨
      ∃ comment ∈ visited.2.docs, ∃ tag ∈ comment.tags, isIntended tag.name = true ∧
        edit = .replace tag.nameSpan overrideName.toList
  /-- Outside the comments only the blank or tab behind a deleted comment goes. -/
  outside : ∀ offset, result.Removes offset →
    (∀ visited ∈ source.root.memberVisits, ∀ comment ∈ visited.2.docs, offset ∉ comment.span) →
    ∃ comment, WhollyDeleted source result comment ∧ offset = comment.span.stop ∧
      (source.text[offset]? = some ' ' ∨ source.text[offset]? = some '\t')
  /-- In a comment only override tags go, unless the comment goes as a whole. -/
  inside : ∀ visited ∈ source.root.memberVisits, ∀ comment ∈ visited.2.docs,
    source.text[comment.span.start]? = some '/' → ∀ offset ∈ comment.span,
      result.Removes offset →
        (∃ tag ∈ comment.tags, isIntended tag.name = true ∧ offset ∈ tag.span) ∨
          WhollyDeleted source result comment
  /-- Of any other tag no character goes. -/
  otherTags : ∀ visited ∈ source.root.memberVisits, ∀ comment ∈ visited.2.docs,
    ∀ tag ∈ comment.tags, isIntended tag.name = false →
      ∀ offset ∈ tag.span, ¬ result.Removes offset

section Bare

private theorem isBareComment_getElem? {text : Text} (h : isBareComment text = true) {index : Nat}
    {c : Char} (hc : text[index]? = some c) :
    (index = 0 ∨ index + 1 = text.length) ∧ c = '/' ∨ c = '*' ∨ Text.isBlank c = true := by
  unfold isBareComment at h
  split at h
  · rename_i body
    rw [Bool.and_eq_true, List.isSuffixOf_iff_suffix] at h
    obtain ⟨⟨front, rfl⟩, hfront⟩ := h
    rw [List.length_append, List.length_cons, List.length_singleton, Nat.add_sub_cancel,
      List.take_left, List.all_eq_true] at hfront
    match index with
    | 0 => exact .inl ⟨.inl rfl, (Option.some.inj hc).symm⟩
    | 1 => exact .inr (.inl (Option.some.inj hc).symm)
    | 2 => exact .inr (.inl (Option.some.inj hc).symm)
    | index + 3 =>
      simp only [List.getElem?_cons_succ] at hc
      by_cases hin : index < front.length
      · rw [List.getElem?_append_left hin] at hc
        have := hfront c (List.mem_of_getElem? hc)
        rw [Bool.or_eq_true, beq_iff_eq] at this
        exact .inr this.symm
      · rw [List.getElem?_append_right (Nat.le_of_not_lt hin)] at hc
        obtain hstar | hslash : index - front.length = 0 ∨ index - front.length = 1 := by
          have := (List.getElem?_eq_some_iff.1 hc).1
          rw [List.length_cons, List.length_singleton] at this
          omega
        · rw [hstar] at hc
          exact .inr (.inl (Option.some.inj hc).symm)
        · rw [hslash] at hc
          refine .inl ⟨.inr ?_, (Option.some.inj hc).symm⟩
          simp only [List.length_cons, List.length_append, List.length_nil]
          omega
  · cases h

theorem Text.getElem?_slice {text : Text} {start stop index : Nat} (h : index < stop - start) :
    (slice text start stop)[index]? = text[start + index]? := by
  rw [slice, List.getElem?_take_of_lt h, List.getElem?_drop]

private theorem bare_of_isBareComment {text : Text} {comment : DocComment} {tag : DocTag}
    (hoccurs : Occurs text (comment, tag)) (h : isBareComment (remainder text comment tag) = true) :
    ∀ offset ∈ comment.span, offset ∉ tag.span → ∃ c, text[offset]? = some c ∧
      ((offset = comment.span.start ∨ offset + 1 = comment.span.stop) ∧ c = '/' ∨
        c = '*' ∨ Text.isBlank c = true) := by
  intro offset hoffset hother
  have hbounds := hoccurs.isSlice.wellPlaced.bounds hoccurs.mem
  have hwithin := hoccurs.isSlice.within
  dsimp only at hbounds hwithin
  rw [Span.mem_iff] at hoffset hother
  have hfront : (Text.slice text comment.span.start tag.span.start).length =
      tag.span.start - comment.span.start := by
    rw [Text.length_slice]
    omega
  have hlength : (remainder text comment tag).length =
      (tag.span.start - comment.span.start) + (comment.span.stop - tag.span.stop) := by
    rw [remainder, List.length_append, hfront, Text.length_slice]
    omega
  have hsome : text[offset]? = some text[offset] := List.getElem?_eq_getElem (by omega)
  refine ⟨text[offset], hsome, ?_⟩
  by_cases hbefore : offset < tag.span.start
  · have hread : (remainder text comment tag)[offset - comment.span.start]? =
        some text[offset] := by
      rw [remainder, List.getElem?_append_left (by omega), Text.getElem?_slice (by omega), ← hsome]
      congr 1
      omega
    refine (isBareComment_getElem? h hread).imp (And.imp_left ?_) id
    omega
  · have hread : (remainder text comment tag)[tag.span.start - comment.span.start +
        (offset - tag.span.stop)]? = some text[offset] := by
      rw [remainder, List.getElem?_append_right (by omega), hfront, Nat.add_sub_cancel_left,
        Text.getElem?_slice (by omega), ← hsome]
      congr 1
      omega
    refine (isBareComment_getElem? h hread).imp (And.imp_left ?_) id
    omega

end Bare

inductive Allowed (text : Text) (visited : Visit × Member) : Edit → Prop
  | insertion : Allowed text visited (.insert visited.1.node.span.start overrideComment)
  | rename {comment : DocComment} {tag : DocTag}
    (h : (comment, tag) ∈ TagScan.intended visited.2.docs) :
    Allowed text visited (.replace tag.nameSpan overrideName.toList)
  | deletion {comment : DocComment} {tag : DocTag}
    (h : (comment, tag) ∈ TagScan.intended visited.2.docs) :
    Allowed text visited (.delete tag.span)
  | whole {comment : DocComment} {tag : DocTag} (hmem : comment ∈ visited.2.docs)
    (h : BareDuplicate text visited.2.docs comment tag) :
    Allowed text visited (.delete (wholeSpan text comment))

theorem TagScan.repeats_of_intended {docs : List DocComment} {first later : DocComment × DocTag}
    {others : List (DocComment × DocTag)} (h : intended docs = first :: others)
    (hlater : later ∈ others) :
    ∃ before after, occurrences docs = before ++ later :: after ∧
      ∃ earlier ∈ before, isIntended earlier.2.name = true := by
  obtain ⟨front, back, hdocs, -, hfirst, rfl⟩ := List.filter_eq_cons_iff.1 h
  obtain ⟨between, after, rfl⟩ := List.append_of_mem (List.mem_filter.1 hlater).1
  refine ⟨front ++ first :: between, after, ?_, first, ?_, hfirst⟩
  · rw [hdocs, List.append_assoc, List.cons_append]
  · exact List.mem_append_right _ List.mem_cons_self

private theorem allowed_deleteOccurrence {text : Text} {visited : Visit × Member}
    {first later : DocComment × DocTag} {others : List (DocComment × DocTag)}
    (hslice : ∀ comment ∈ visited.2.docs, comment.IsSlice text)
    (h : TagScan.intended visited.2.docs = first :: others) (hlater : later ∈ others) :
    Allowed text visited (deleteOccurrence text later.1 later.2) := by
  have hmem : later ∈ TagScan.intended visited.2.docs := h ▸ List.mem_cons_of_mem _ hlater
  obtain ⟨hcomment, htag, hintended⟩ := TagScan.mem_intended.1 hmem
  unfold deleteOccurrence
  split
  · rename_i hbare
    have honly : later.1.tags = [later.2] := by
      obtain ⟨tag, htags⟩ := List.length_eq_one_iff.1 hbare.1
      rw [htags, List.mem_singleton] at htag
      rw [htags, htag]
    exact .whole hcomment ⟨honly, hintended, TagScan.repeats_of_intended h hlater,
      bare_of_isBareComment ⟨hslice later.1 hcomment, htag⟩ hbare.2⟩
  · exact .deletion hmem

theorem Rule.MayNeed.allowed {text : Text} {visited : Visit × Member} {edit : Edit}
    (h : MayNeed text visited edit) (hslice : ∀ comment ∈ visited.2.docs, comment.IsSlice text) :
    Allowed text visited edit := by
  obtain ⟨category, baseFound, hedit⟩ := h
  cases hintended : TagScan.intended visited.2.docs with
  | nil =>
    rw [hintended, repairs] at hedit
    rw [(mem_unless.1 hedit).2]
    exact .insertion
  | cons first later =>
    have hfirst : first ∈ TagScan.intended visited.2.docs := hintended ▸ List.mem_cons_self
    rw [hintended] at hedit
    rcases mem_repairs_cons.1 hedit with ⟨_, rfl⟩ | ⟨occurrence, hmem, rfl⟩ | ⟨_, rfl⟩
    · exact .rename hfirst
    · exact allowed_deleteOccurrence hslice hintended hmem
    · exact .deletion hfirst

private theorem mem_wholeSpan {text : Text} {comment : DocComment} {offset : Nat}
    (h : offset ∈ wholeSpan text comment) :
    offset ∈ comment.span ∨ offset = comment.span.stop ∧
      (text[offset]? = some ' ' ∨ text[offset]? = some '\t') := by
  rw [Span.mem_iff] at h ⊢
  unfold wholeSpan at h
  dsimp only at h
  split at h
  · rename_i hblank
    dsimp only at h
    by_cases hlast : offset = comment.span.stop
    · rw [← hlast] at hblank
      exact .inr ⟨hlast, hblank⟩
    · exact .inl ⟨h.1, by omega⟩
  · exact .inl h

/-- Where a character may go: in an override tag, in a comment deleted as a whole, or right
behind such a comment. -/
inductive Footprint (source : SourceFile) (result : FixResult) (offset : Nat) : Prop
  | inTag {visited : Visit × Member} {comment : DocComment} {tag : DocTag}
    (hvisited : visited ∈ source.root.memberVisits)
    (h : (comment, tag) ∈ TagScan.intended visited.2.docs) (hoffset : offset ∈ tag.span)
  | inComment {visited : Visit × Member} {comment : DocComment}
    (hvisited : visited ∈ source.root.memberVisits) (hcomment : comment ∈ visited.2.docs)
    (h : WhollyDeleted source result comment) (hoffset : offset ∈ comment.span)
  | behind {visited : Visit × Member} {comment : DocComment}
    (hvisited : visited ∈ source.root.memberVisits) (hcomment : comment ∈ visited.2.docs)
    (h : WhollyDeleted source result comment) (hoffset : offset = comment.span.stop)
    (hblank : source.text[offset]? = some ' ' ∨ source.text[offset]? = some '\t')

theorem Allowed.footprint {source : SourceFile} {result : FixResult} {visited : Visit × Member}
    {edit : Edit} {offset : Nat} (h : Allowed source.text visited edit)
    (hvisited : visited ∈ source.root.memberVisits)
    (hslice : ∀ comment ∈ visited.2.docs, comment.IsSlice source.text)
    (happlied : edit ∈ result.applied) (hoffset : offset ∈ edit.span) :
    Footprint source result offset := by
  cases h with
  | insertion =>
    have hempty := Span.mem_iff.1 hoffset
    dsimp only [Edit.span, Span.empty] at hempty
    omega
  | @rename comment tag hintended =>
    obtain ⟨hcomment, htag, _⟩ := TagScan.mem_intended.1 hintended
    have hplaced := ((hslice comment hcomment).wellPlaced.tags tag htag).bounds
    have hname := Span.mem_iff.1 hoffset
    dsimp only [Edit.span] at hname
    exact .inTag hvisited hintended (Span.mem_iff.2 (by omega))
  | deletion hintended => exact .inTag hvisited hintended hoffset
  | whole hcomment hbare =>
    have hwhole : WhollyDeleted source result _ := ⟨visited, hvisited, _, hbare, happlied⟩
    rcases mem_wholeSpan hoffset with hin | ⟨hstop, hblank⟩
    · exact .inComment hvisited hcomment hwhole hin
    · exact .behind hvisited hcomment hwhole hstop hblank

namespace SourceFile.Documented

variable {source : SourceFile}

theorem mem_span (h : source.Documented) {visited : Visit × Member}
    (hvisited : visited ∈ source.root.memberVisits) {comment : DocComment} {tag : DocTag}
    (hcomment : comment ∈ visited.2.docs) (htag : tag ∈ comment.tags) {offset : Nat}
    (hoffset : offset ∈ tag.span) : offset ∈ comment.span := by
  have hbounds := (h.isSlice visited hvisited comment hcomment).wellPlaced.bounds htag
  rw [Span.mem_iff] at hoffset ⊢
  omega

theorem overlaps_or_eq (h : source.Documented) {a b : Visit × Member} {comment other : DocComment}
    (ha : a ∈ source.root.memberVisits) (hb : b ∈ source.root.memberVisits)
    (hcomment : comment ∈ a.2.docs) (hother : other ∈ b.2.docs) :
    comment = other ∨ comment.span.overlaps other.span = false := by
  have hsymm : Std.Symm fun a b : DocComment => a.span.overlaps b.span = false :=
    ⟨fun a b h => (Span.overlaps_comm b.span a.span).trans h⟩
  exact or_iff_not_imp_left.2 (h.disjoint.forall (List.mem_flatMap.2 ⟨a, ha, hcomment⟩)
    (List.mem_flatMap.2 ⟨b, hb, hother⟩))

theorem eq_of_mem (h : source.Documented) {a b : Visit × Member} {comment other : DocComment}
    (ha : a ∈ source.root.memberVisits) (hb : b ∈ source.root.memberVisits)
    (hcomment : comment ∈ a.2.docs) (hother : other ∈ b.2.docs) {offset : Nat}
    (hin : offset ∈ comment.span) (hin' : offset ∈ other.span) : comment = other := by
  rcases h.overlaps_or_eq ha hb hcomment hother with heq | hapart
  · exact heq
  · rw [Span.overlaps_eq_false] at hapart
    rw [Span.mem_iff] at hin hin'
    omega

variable {result : FixResult} {offset : Nat}

theorem inside_of_footprint (h : source.Documented) (hfoot : Footprint source result offset)
    {visited : Visit × Member} (hvisited : visited ∈ source.root.memberVisits)
    {comment : DocComment} (hcomment : comment ∈ visited.2.docs)
    (hopened : source.text[comment.span.start]? = some '/') (hoffset : offset ∈ comment.span) :
    (∃ tag ∈ comment.tags, isIntended tag.name = true ∧ offset ∈ tag.span) ∨
      WhollyDeleted source result comment := by
  cases hfoot with
  | @inTag owner other tag howner hintended hin =>
    obtain ⟨hother, htag, hname⟩ := TagScan.mem_intended.1 hintended
    obtain rfl := h.eq_of_mem howner hvisited hother hcomment
      (h.mem_span howner hother htag hin) hoffset
    exact .inl ⟨tag, htag, hname, hin⟩
  | inComment howner hother hwhole hin =>
    obtain rfl := h.eq_of_mem howner hvisited hother hcomment hin hoffset
    exact .inr hwhole
  | @behind owner other howner hother hwhole hstop hblank =>
    rcases h.overlaps_or_eq hvisited howner hcomment hother with rfl | hapart
    · exact .inr hwhole
    · rw [Span.overlaps_eq_false] at hapart
      rw [Span.mem_iff] at hoffset
      have hle := other.span.start_le_stop
      have hstart : comment.span.start = offset := by omega
      rw [hstart] at hopened
      rw [hopened] at hblank
      simp at hblank

theorem outside_of_footprint (h : source.Documented) (hfoot : Footprint source result offset)
    (hout : ∀ visited ∈ source.root.memberVisits, ∀ comment ∈ visited.2.docs,
      offset ∉ comment.span) :
    ∃ comment, WhollyDeleted source result comment ∧ offset = comment.span.stop ∧
      (source.text[offset]? = some ' ' ∨ source.text[offset]? = some '\t') := by
  cases hfoot with
  | inTag howner hintended hin =>
    obtain ⟨hcomment, htag, _⟩ := TagScan.mem_intended.1 hintended
    exact absurd (h.mem_span howner hcomment htag hin) (hout _ howner _ hcomment)
  | inComment howner hcomment _ hin => exact absurd hin (hout _ howner _ hcomment)
  | behind _ _ hwhole hstop hblank => exact ⟨_, hwhole, hstop, hblank⟩

theorem not_footprint_of_otherTag (h : source.Documented) {visited : Visit × Member}
    (hvisited : visited ∈ source.root.memberVisits) {comment : DocComment}
    (hcomment : comment ∈ visited.2.docs) {tag : DocTag} (htag : tag ∈ comment.tags)
    (hother : isIntended tag.name = false) (hoffset : offset ∈ tag.span) :
    ¬ Footprint source result offset := by
  intro hfoot
  have hslice := h.isSlice visited hvisited comment hcomment
  rcases h.inside_of_footprint hfoot hvisited hcomment (hslice.head_of_mem htag)
    (h.mem_span hvisited hcomment htag hoffset) with ⟨intended, hintended, hname, hin⟩ | hwhole
  · have hne : tag ≠ intended := by
      rintro rfl
      rw [hname] at hother
      cases hother
    have hsymm : Std.Symm fun a b : DocTag => a.span.overlaps b.span = false :=
      ⟨fun a b h => (Span.overlaps_comm b.span a.span).trans h⟩
    have hapart : comment.tags.Pairwise fun a b => a.span.overlaps b.span = false :=
      hslice.wellPlaced.ordered.imp fun hle => Span.overlaps_eq_false.2 (.inr hle)
    have := Span.overlaps_eq_false.1 (hapart.forall htag hintended hne)
    rw [Span.mem_iff] at hoffset hin
    omega
  · obtain ⟨_, _, only, hbare, _⟩ := hwhole
    rw [hbare.only, List.mem_singleton] at htag
    rw [htag, hbare.intended] at hother
    cases hother

end SourceFile.Documented

namespace Rule

variable {σ : Type}

/-- Repairing any of the diagnostics of a file changes nothing but documentation: whatever
is found to be overridden, and whichever repairs stand in the way of others. -/
theorem touchesOnlyDocs_applyEdits (resolve : TypeReference → StateT σ Logged Resolution)
    (severity : Severity) (source : SourceFile) (state : σ) (h : source.Documented)
    {chosen : List Diagnostic} (hchosen : chosen ⊆ returned (check resolve severity source) state) :
    TouchesOnlyDocs source (applyEdits source.text (fixesOf chosen)) := by
  have hspliced := applyEdits_spliced source.text (fixesOf chosen)
  have hmem : ∀ edit ∈ (applyEdits source.text (fixesOf chosen)).applied, edit ∈ fixesOf chosen :=
    fun _ => mem_of_mem_applied
  generalize applyEdits source.text (fixesOf chosen) = result at hspliced hmem
  have hallowed : ∀ edit ∈ result.applied, ∃ visited ∈ source.root.memberVisits,
      Allowed source.text visited edit := by
    intro edit hedit
    obtain ⟨diagnostic, hdiagnostic, hfix⟩ := List.mem_filterMap.1 (hmem edit hedit)
    obtain ⟨needed, hneeded, visited, hvisited, hneeds⟩ := exists_mayNeed (hchosen hdiagnostic)
    obtain rfl : needed = edit := Option.some.inj (hneeded.symm.trans hfix)
    exact ⟨visited, hvisited, hneeds.allowed (h.isSlice visited hvisited)⟩
  have hfoot : ∀ offset, result.Removes offset → Footprint source result offset := by
    rintro offset ⟨edit, hedit, hcovers⟩
    obtain ⟨visited, hvisited, hallowed⟩ := hallowed edit hedit
    exact hallowed.footprint hvisited (h.isSlice visited hvisited) hedit
      (Edit.covers_iff.1 hcovers)
  refine ⟨hspliced.text_eq, hspliced.descending.imp Edit.LiesBefore.not_overlaps, ?_, ?_, ?_, ?_⟩
  · intro edit hedit hwritten
    obtain ⟨visited, hvisited, hallowed⟩ := hallowed edit hedit
    refine ⟨visited, hvisited, ?_⟩
    cases hallowed with
    | insertion => exact .inl rfl
    | @rename comment tag hintended =>
      obtain ⟨hcomment, htag, hname⟩ := TagScan.mem_intended.1 hintended
      exact .inr ⟨comment, hcomment, tag, htag, hname, rfl⟩
    | deletion => exact absurd rfl hwritten
    | whole => exact absurd rfl hwritten
  · intro offset hremoves
    exact h.outside_of_footprint (hfoot offset hremoves)
  · intro visited hvisited comment hcomment hopened offset hoffset hremoves
    exact h.inside_of_footprint (hfoot offset hremoves) hvisited hcomment hopened hoffset
  · intro visited hvisited comment hcomment tag htag hother offset hoffset hremoves
    exact h.not_footprint_of_otherTag hvisited hcomment htag hother hoffset (hfoot offset hremoves)

/-- Of the repairs of the crowded file all but the first are made, among them the deletion of
a whole comment. -/
theorem touchesOnlyDocs_applyEdits_crowded :
    crowdedFile.Documented ∧
      ∃ chosen, chosen ⊆ returned (check (fun _ : TypeReference =>
          (pure (.found ⟨"B", ["g"]⟩) : StateT Unit Logged Resolution)) .error crowdedFile) () ∧
        fixesOf chosen =
          [.delete ⟨18, 35, by decide⟩, .delete ⟨4, 14, by decide⟩, .insert 42 overrideComment] ∧
        TouchesOnlyDocs crowdedFile (applyEdits crowdedFile.text (fixesOf chosen)) := by
  have hdocumented : crowdedFile.Documented :=
    ⟨wellAttached_crowdedFile.isSlice, wellAttached_crowdedFile.disjoint⟩
  refine ⟨hdocumented, _, List.drop_subset 1 _, ?_,
    touchesOnlyDocs_applyEdits _ .error crowdedFile () hdocumented (List.drop_subset 1 _)⟩
  decide +kernel

end Rule
end OverrideLint
