import OverrideLint.Proofs.DocComment.Lines
import OverrideLint.Proofs.Text.Slice

/-! Where the tags of a comment lie: one behind the other, between the delimiters, each
with its name behind its at-sign. -/
namespace OverrideLint

structure DocTag.WellPlaced (tag : DocTag) : Prop where
  name_start : tag.nameSpan.start = tag.span.start + 1
  name_nonempty : tag.nameSpan.start < tag.nameSpan.stop
  name_stop : tag.nameSpan.stop ≤ tag.span.stop

theorem DocTag.WellPlaced.bounds {tag : DocTag} (h : tag.WellPlaced) :
    tag.span.start < tag.nameSpan.start ∧ tag.nameSpan.start < tag.nameSpan.stop ∧
      tag.nameSpan.stop ≤ tag.span.stop :=
  ⟨h.name_start ▸ Nat.lt_succ_self _, h.name_nonempty, h.name_stop⟩

structure DocTag.StandsIn (text : Text) (tag : DocTag) : Prop where
  at_sign : text[tag.span.start]? = some '@'
  name : Text.slice text tag.nameSpan.start tag.nameSpan.stop = tag.name.toList

namespace DocComment

structure WellPlaced (comment : DocComment) : Prop where
  tags : ∀ tag ∈ comment.tags, tag.WellPlaced
  opened : ∀ tag ∈ comment.tags, comment.span.start + 3 ≤ tag.span.start
  closed : ∀ tag ∈ comment.tags, tag.span.stop + 2 ≤ comment.span.stop
  ordered : comment.tags.Pairwise fun a b => a.span.stop ≤ b.span.start

theorem WellPlaced.bounds {comment : DocComment} (h : comment.WellPlaced) {tag : DocTag}
    (hmem : tag ∈ comment.tags) :
    comment.span.start + 3 ≤ tag.span.start ∧ tag.span.start < tag.span.stop ∧
      tag.span.stop + 2 ≤ comment.span.stop := by
  have htag := (h.tags tag hmem).bounds
  exact ⟨h.opened tag hmem, by omega, h.closed tag hmem⟩

theorem scan_render (cursor : Cursor) (text : Text) :
    (scan cursor text).1.flatMap Item.render ++ (scan cursor text).2 = text := by
  fun_induction scan cursor text with
  | case1 cursor text name run after hread more ih =>
    have htag := (Cursor.readTag_of_readTag? hread).2
    rw [List.flatMap_cons, List.append_assoc, ih]
    exact readTag_append htag
  | case2 cursor hread => rfl
  | case3 cursor c rest hread hstops => rfl
  | case4 cursor c rest hread hstops more ih =>
    rw [List.flatMap_cons, List.append_assoc, ih]
    rfl

private theorem name_ne_nil_of_readTag {text name run after : Text}
    (h : readTag text = some (name, run, after)) : name ≠ [] := by
  unfold readTag at h
  split at h
  · split at h
    · cases h
      exact List.cons_ne_nil _ _
    · cases h
  · cases h

private theorem name_ne_nil_of_mem_scan {cursor : Cursor} {text name run : Text}
    (h : Item.tag name run ∈ (scan cursor text).1) : name ≠ [] := by
  fun_induction scan cursor text with
  | case1 cursor text name' run' after hread more ih =>
    rcases List.mem_cons.1 h with heq | hmore
    · cases heq
      exact name_ne_nil_of_readTag (Cursor.readTag_of_readTag? hread).2
    · exact ih hmore
  | case2 cursor hread => cases h
  | case3 cursor c rest hread hstops => cases h
  | case4 cursor c rest hread hstops more ih =>
    rcases List.mem_cons.1 h with heq | hmore
    · cases heq
    · exact ih hmore

private theorem shift_itemTags (offset shift : Nat) (items : List Item) :
    (itemTags offset items).map (·.shift shift) = itemTags (shift + offset) items := by
  induction items generalizing offset with
  | nil => rfl
  | cons item items ih =>
    cases item with
    | char c => exact ih (offset + 1)
    | tag name run =>
      simp only [itemTags, List.map_cons, ih, Nat.add_assoc]
      congr 1
      simp only [DocTag.shift, DocTag.ofSegment, Span.shift, Nat.add_assoc]

theorem span_ofSegment_le (offset : Nat) (name run : Text) :
    (DocTag.ofSegment offset name run).span.stop ≤
      offset + (Item.tag name run).render.length := by
  have := Text.length_trimRight_le run
  simp only [DocTag.ofSegment, Item.render, List.cons_append, List.length_cons, List.length_append]
  omega

theorem itemTags_within {offset : Nat} {items : List Item} {tag : DocTag}
    (h : tag ∈ itemTags offset items) :
    offset ≤ tag.span.start ∧ tag.span.stop ≤ offset + (items.flatMap Item.render).length := by
  induction items generalizing offset with
  | nil => cases h
  | cons item items ih =>
    rw [List.flatMap_cons, List.length_append]
    cases item with
    | char c =>
      have := ih h
      rw [Item.render, List.length_singleton]
      omega
    | tag name run =>
      rcases List.mem_cons.1 h with rfl | hlater
      · have := span_ofSegment_le offset name run
        exact ⟨Nat.le_refl _, by omega⟩
      · have := ih hlater
        omega

theorem pairwise_itemTags (offset : Nat) (items : List Item) :
    (itemTags offset items).Pairwise fun a b => a.span.stop ≤ b.span.start := by
  induction items generalizing offset with
  | nil => exact List.Pairwise.nil
  | cons item items ih =>
    cases item with
    | char c => exact ih (offset + 1)
    | tag name run =>
      apply List.pairwise_cons.2
      refine ⟨?_, ih _⟩
      intro later hlater
      exact Nat.le_trans (span_ofSegment_le offset name run) (itemTags_within hlater).1

theorem itemTags_wellPlaced {offset : Nat} {items : List Item} {tag : DocTag}
    (hnames : ∀ name run, Item.tag name run ∈ items → name ≠ []) (h : tag ∈ itemTags offset items) :
    tag.WellPlaced := by
  induction items generalizing offset with
  | nil => cases h
  | cons item items ih =>
    have hrest := fun name run hmem => hnames name run (List.mem_cons_of_mem _ hmem)
    cases item with
    | char c => exact ih hrest h
    | tag name run =>
      rcases List.mem_cons.1 h with rfl | hlater
      · have hpos := List.length_pos_iff.2 (hnames name run List.mem_cons_self)
        exact ⟨rfl, Nat.lt_add_of_pos_right hpos, Nat.le_add_right ..⟩
      · exact ih hrest hlater

theorem standsIn_ofSegment {text name run rest : Text} {offset : Nat}
    (h : text.drop offset = (Item.tag name run).render ++ rest) :
    (DocTag.ofSegment offset name run).StandsIn text := by
  have hname : text.drop (offset + 1) = name ++ (run ++ rest) := by
    rw [← List.drop_drop, h]
    simp [Item.render]
  constructor
  · rw [← List.head?_drop]
    exact congrArg List.head? h
  · simp [DocTag.ofSegment, Text.slice, hname]

private theorem itemTags_standsIn {text rest : Text} {offset : Nat} {items : List Item}
    {tag : DocTag} (htext : text.drop offset = items.flatMap Item.render ++ rest)
    (h : tag ∈ itemTags offset items) :
    tag.StandsIn text := by
  induction items generalizing offset with
  | nil => cases h
  | cons item items ih =>
    rw [List.flatMap_cons, List.append_assoc] at htext
    have hbehind : text.drop (offset + item.render.length) = items.flatMap Item.render ++ rest := by
      rw [← List.drop_drop, htext, List.drop_left]
    cases item with
    | char c => exact ih hbehind h
    | tag name run =>
      rcases List.mem_cons.1 h with rfl | hlater
      · exact standsIn_ofSegment htext
      · exact ih hbehind hlater

/-- A complete comment, with the items between its delimiters. -/
structure Reads (text : Text) (items : List Item) : Prop where
  text_eq : text = ['/', '*', '*'] ++ (items.flatMap Item.render ++ ['*', '/'])
  scan_eq : scan ⟨.indent, false⟩ (items.flatMap Item.render ++ ['*', '/']) = (items, ['*', '/'])

theorem Reads.name_ne_nil {text : Text} {items : List Item} (h : Reads text items) :
    ∀ name run, Item.tag name run ∈ items → name ≠ [] := by
  intro name run hmem
  have hscan : Item.tag name run ∈
      (scan ⟨.indent, false⟩ (items.flatMap Item.render ++ ['*', '/'])).1 := by
    rw [h.scan_eq]
    exact hmem
  exact name_ne_nil_of_mem_scan hscan

theorem parseTags_eq_ok_iff_reads {text : Text} {tags : List DocTag} :
    parseTags text = .ok tags ↔ ∃ items, Reads text items ∧ tags = itemTags 3 items := by
  rw [parseTags_eq_ok_iff]
  constructor
  · rintro ⟨body, items, rfl, hscan, htags⟩
    have hbody := scan_render ⟨.indent, false⟩ body
    rw [hscan] at hbody
    refine ⟨items, ⟨?_, ?_⟩, htags⟩
    · rw [hbody]
      rfl
    · rw [hbody, hscan]
  · rintro ⟨items, hreads, htags⟩
    exact ⟨_, items, hreads.text_eq, hreads.scan_eq, htags⟩

theorem tags_of_reads {text : Text} {items : List Item} (h : Reads text items) (start : Nat) :
    (ofText text start).value.tags = itemTags (start + 3) items := by
  have hparse : parseTags text = .ok (itemTags 3 items) :=
    parseTags_eq_ok_iff_reads.2 ⟨items, h, rfl⟩
  unfold ofText
  simp only [hparse, shift_itemTags]

/-- A text is a complete comment, or it has no tags wherever it stands. -/
theorem reads_or_tags_eq_nil (text : Text) :
    (∃ items, Reads text items) ∨ ∀ start, (ofText text start).value.tags = [] := by
  cases hparse : parseTags text with
  | ok tags =>
    obtain ⟨items, hreads, _⟩ := parseTags_eq_ok_iff_reads.1 hparse
    exact .inl ⟨items, hreads⟩
  | error error =>
    right
    intro start
    unfold ofText
    simp only [hparse]

theorem name_tags_ofText (text : Text) (start start' : Nat) :
    (ofText text start).value.tags.map (·.name) = (ofText text start').value.tags.map (·.name) := by
  unfold ofText
  cases parseTags text with
  | ok tags =>
    simp only [List.map_map]
    rfl
  | error error => rfl

theorem span_ofText (text : Text) (start : Nat) :
    (ofText text start).value.span = ⟨start, start + text.length, Nat.le_add_right ..⟩ := by
  unfold ofText
  dsimp only
  split <;> rfl

private theorem wellPlaced_ofText (text : Text) (start : Nat) :
    (ofText text start).value.WellPlaced := by
  rcases reads_or_tags_eq_nil text with ⟨items, hreads⟩ | hnone
  · have htags := tags_of_reads hreads start
    have hlength := congrArg List.length hreads.text_eq
    simp only [List.length_append, List.length_cons, List.length_nil] at hlength
    refine ⟨?_, ?_, ?_, ?_⟩
    · intro tag hmem
      rw [htags] at hmem
      exact itemTags_wellPlaced hreads.name_ne_nil hmem
    · intro tag hmem
      rw [htags] at hmem
      rw [span_ofText]
      exact (itemTags_within hmem).1
    · intro tag hmem
      rw [htags] at hmem
      have := (itemTags_within hmem).2
      rw [span_ofText]
      dsimp only
      omega
    · rw [htags]
      exact pairwise_itemTags _ _
  · refine ⟨?_, ?_, ?_, ?_⟩
    all_goals rw [hnone start]
    · intro tag hmem
      cases hmem
    · intro tag hmem
      cases hmem
    · intro tag hmem
      cases hmem
    · exact List.Pairwise.nil

/-- A comment that was read where it stands in a text. -/
structure IsSlice (source : Text) (comment : DocComment) : Prop where
  within : comment.span.stop ≤ source.length
  read : (ofText (Text.slice source comment.span.start comment.span.stop)
    comment.span.start).value = comment

instance (source : Text) (comment : DocComment) : Decidable (comment.IsSlice source) :=
  decidable_of_iff
    (comment.span.stop ≤ source.length ∧
      (ofText (Text.slice source comment.span.start comment.span.stop)
        comment.span.start).value = comment)
    ⟨fun h => ⟨h.1, h.2⟩, fun h => ⟨h.within, h.read⟩⟩

namespace IsSlice

variable {source : Text} {comment : DocComment}

theorem wellPlaced (h : comment.IsSlice source) : comment.WellPlaced := by
  rw [← h.read]
  exact wellPlaced_ofText _ _

theorem head_of_mem (h : comment.IsSlice source) {tag : DocTag} (hmem : tag ∈ comment.tags) :
    source[comment.span.start]? = some '/' := by
  rcases reads_or_tags_eq_nil (Text.slice source comment.span.start comment.span.stop) with
    ⟨items, hreads⟩ | hnone
  · have hhead := congrArg List.head? hreads.text_eq
    rw [Text.slice, List.head?_take, List.head?_drop] at hhead
    split at hhead
    · cases hhead
    · exact hhead
  · rw [← h.read, hnone] at hmem
    cases hmem

theorem standsIn (h : comment.IsSlice source) {tag : DocTag} (hmem : tag ∈ comment.tags) :
    tag.StandsIn source := by
  rcases reads_or_tags_eq_nil (Text.slice source comment.span.start comment.span.stop) with
    ⟨items, hreads⟩ | hnone
  · rw [← h.read, tags_of_reads hreads] at hmem
    have hdrop := Text.slice_append_drop source comment.span.start_le_stop
    rw [hreads.text_eq] at hdrop
    have hbody : source.drop (comment.span.start + 3) =
        items.flatMap Item.render ++ (['*', '/'] ++ source.drop comment.span.stop) := by
      rw [← List.drop_drop, ← hdrop]
      simp
    exact itemTags_standsIn hbody hmem
  · rw [← h.read, hnone] at hmem
    cases hmem

end IsSlice
end DocComment
end OverrideLint
