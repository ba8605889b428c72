import OverrideLint.Proofs.DocComment.Amend
import OverrideLint.Proofs.DocComment.Extent
import OverrideLint.Proofs.Edit.Relocate

/-! Edits that rename and delete tags, made in the text around a comment, amend the
comment: read again, it has the tags that were kept or renamed and no others. -/
namespace OverrideLint.DocComment

namespace Amendment

def edit? (tag : DocTag) : Amendment → Option Edit
  | keep => none
  | rename => some (.replace tag.nameSpan overrideName.toList)
  | cut => some (.delete tag.span)

def nameAfter (tag : DocTag) : Amendment → Option String
  | keep => some tag.name
  | rename => some overrideName
  | cut => none

theorem span_edit? {amendment : Amendment} {tag : DocTag} {edit : Edit}
    (h : amendment.edit? tag = some edit) (htag : tag.WellPlaced) :
    tag.span.start ≤ edit.span.start ∧ edit.span.start < edit.span.stop ∧
      edit.span.stop ≤ tag.span.stop := by
  have hbounds := htag.bounds
  cases amendment with
  | keep => cases h
  | rename =>
    cases h
    dsimp only [Edit.span]
    omega
  | cut =>
    cases h
    dsimp only [Edit.span]
    omega

end Amendment

/-- Between two offsets the edits are those that amend some tags. -/
structure Amends (edits : List Edit) (act : DocTag → Amendment) (start stop : Nat)
    (tags : List DocTag) : Prop where
  made : ∀ tag ∈ tags, ∀ edit, (act tag).edit? tag = some edit → edit ∈ edits
  only : ∀ edit ∈ edits, edit.Touches start stop →
    ∃ tag ∈ tags, (act tag).edit? tag = some edit

variable {edits : List Edit} {act : DocTag → Amendment}

namespace Amends

theorem split {start stop : Nat} (middle : Nat) (front back : List DocTag)
    (h : Amends edits act start stop (front ++ back))
    (hplaced : ∀ tag ∈ front ++ back, tag.WellPlaced)
    (hfront : ∀ tag ∈ front, tag.span.stop ≤ middle)
    (hback : ∀ tag ∈ back, middle ≤ tag.span.start) (hstart : start ≤ middle)
    (hstop : middle ≤ stop) :
    Amends edits act start middle front ∧ Amends edits act middle stop back := by
  refine ⟨⟨?_, ?_⟩, ⟨?_, ?_⟩⟩
  · intro tag htag
    exact h.made tag (List.mem_append_left _ htag)
  · intro edit hmem htouches
    unfold Edit.Touches at htouches
    obtain ⟨tag, htag, hedit⟩ := h.only edit hmem (by unfold Edit.Touches; omega)
    have hspan := Amendment.span_edit? hedit (hplaced tag htag)
    rcases List.mem_append.1 htag with hmem | hmem
    · exact ⟨tag, hmem, hedit⟩
    · have := hback tag hmem
      omega
  · intro tag htag
    exact h.made tag (List.mem_append_right _ htag)
  · intro edit hmem htouches
    unfold Edit.Touches at htouches
    obtain ⟨tag, htag, hedit⟩ := h.only edit hmem (by unfold Edit.Touches; omega)
    have hspan := Amendment.span_edit? hedit (hplaced tag htag)
    rcases List.mem_append.1 htag with hmem | hmem
    · have := hfront tag hmem
      omega
    · exact ⟨tag, hmem, hedit⟩

theorem copied {offset : Nat} (part : Text) (h : Amends edits act offset (offset + part.length) []) :
    Edit.splicePart edits offset part = part := by
  apply Edit.splicePart_of_untouched
  intro edit hmem htouches
  obtain ⟨tag, htag, _⟩ := h.only edit hmem htouches
  cases htag

end Amends

private theorem render_eq_name (name run : Text) :
    (Item.tag name run).render = ['@'] ++ (name ++ run) :=
  rfl

private theorem render_eq_trimRight (name run : Text) :
    (Item.tag name run).render =
      [] ++ (('@' :: (name ++ Text.trimRight run)) ++ Text.trailing run) := by
  rw [List.nil_append, List.cons_append, List.append_assoc, Text.trimRight_append_trailing]
  rfl

private theorem splicePart_tag (hdescending : Edit.Descending edits) {offset : Nat}
    {name run : Text} (hname : name ≠ [])
    (h : Amends edits act offset (offset + (Item.tag name run).render.length)
      [DocTag.ofSegment offset name run]) :
    Edit.splicePart edits offset (Item.tag name run).render =
      amendItem act offset (.tag name run) := by
  have honly : ∀ edit ∈ edits, edit.Touches offset (offset + (Item.tag name run).render.length) →
      (act (DocTag.ofSegment offset name run)).edit? (DocTag.ofSegment offset name run) =
        some edit := by
    intro edit hmem htouches
    obtain ⟨tag, htag, hedit⟩ := h.only edit hmem htouches
    rw [List.mem_singleton.1 htag] at hedit
    exact hedit
  have hmade := h.made _ (List.mem_singleton.2 rfl)
  rw [amendItem]
  cases hact : act (DocTag.ofSegment offset name run) with
  | keep =>
    apply Edit.splicePart_of_untouched
    intro edit hmem htouches
    have := honly edit hmem htouches
    rw [hact] at this
    cases this
  | rename =>
    rw [hact] at honly hmade
    have hmem := hmade _ rfl
    rw [render_eq_name] at honly ⊢
    apply Edit.splicePart_around ['@'] name run hdescending hmem hname rfl rfl
    intro other hother htouches
    exact (Option.some.inj (honly other hother htouches)).symm
  | cut =>
    rw [hact] at honly hmade
    have hmem := hmade _ rfl
    rw [render_eq_trimRight] at honly ⊢
    apply Edit.splicePart_around [] _ (Text.trailing run) hdescending hmem
      (List.cons_ne_nil _ _) rfl
    · simp only [Edit.span, DocTag.ofSegment, List.length_cons, List.length_append, List.length_nil]
      omega
    · intro other hother htouches
      exact (Option.some.inj (honly other hother htouches)).symm

private theorem splicePart_items (hdescending : Edit.Descending edits) {offset : Nat}
    {items : List Item} (hnames : ∀ name run, Item.tag name run ∈ items → name ≠ [])
    (h : Amends edits act offset (offset + (items.flatMap Item.render).length)
      (itemTags offset items)) :
    Edit.splicePart edits offset (items.flatMap Item.render) = amend act offset items := by
  induction items generalizing offset with
  | nil => rfl
  | cons item items ih =>
    have hrestNames := fun name run hmem => hnames name run (List.mem_cons_of_mem _ hmem)
    have hplaced : ∀ tag ∈ itemTags offset (item :: items), tag.WellPlaced :=
      fun tag hmem => itemTags_wellPlaced hnames hmem
    rw [List.flatMap_cons, List.length_append, ← Nat.add_assoc] at h
    rw [List.flatMap_cons, Edit.splicePart_append, amend]
    cases item with
    | char c =>
      obtain ⟨hchar, hrest⟩ := Amends.split (offset + (Item.char c).render.length) []
        (itemTags _ items) h hplaced (by simp) (fun tag hmem => (itemTags_within hmem).1) (by omega)
        (by omega)
      rw [hchar.copied _, ih hrestNames hrest]
      rfl
    | tag name run =>
      obtain ⟨hfirst, hrest⟩ := Amends.split (offset + (Item.tag name run).render.length)
        [DocTag.ofSegment offset name run] (itemTags _ items) h hplaced
        (by simpa using span_ofSegment_le offset name run)
        (fun tag hmem => (itemTags_within hmem).1) (by omega) (by omega)
      rw [splicePart_tag hdescending (hnames name run List.mem_cons_self) hfirst,
        ih hrestNames hrest]

private theorem name_amendedTags (offset place : Nat) (items : List Item) :
    (amendedTags act offset place items).map (·.name) =
      (itemTags offset items).filterMap fun tag => (act tag).nameAfter tag := by
  induction items generalizing offset place with
  | nil => rfl
  | cons item items ih =>
    cases item with
    | char c => exact ih _ _
    | tag name run =>
      rw [amendedTags, itemTags, List.map_append, ih, List.filterMap_cons]
      cases act (DocTag.ofSegment offset name run) with
      | keep => rfl
      | rename => simp [Amendment.name?, Amendment.nameAfter, DocTag.ofSegment]
      | cut => rfl

theorem reads_amend (act : DocTag → Amendment) {text : Text} {items : List Item}
    (h : Reads text items) (offset : Nat) :
    ∃ after, Reads (['/', '*', '*'] ++ (amend act offset items ++ ['*', '/'])) after ∧
      ∀ place, itemTags place after = amendedTags act offset place items := by
  have hamend : amendText act ⟨.indent, false⟩ offset (items.flatMap Item.render ++ ['*', '/']) =
      amend act offset items ++ ['*', '/'] := by
    rw [amendText, h.scan_eq]
  have hscan := fun place => scan_amendText act ⟨.indent, false⟩ ⟨.indent, false⟩
    (items.flatMap Item.render ++ ['*', '/']) (.inl rfl) offset place
  simp only [hamend, h.scan_eq] at hscan
  generalize hafter : amend act offset items ++ ['*', '/'] = after at hscan
  have hend : (scan ⟨.indent, false⟩ after).2 = ['*', '/'] := (hscan 0).1
  have hrender := scan_render ⟨.indent, false⟩ after
  rw [hend] at hrender
  refine ⟨(scan ⟨.indent, false⟩ after).1, ⟨?_, ?_⟩, fun place => (hscan place).2⟩
  · rw [hrender]
  · rw [hrender]
    exact Prod.ext rfl hend

theorem splicePart_comment (hdescending : Edit.Descending edits) {text : Text} {items : List Item}
    (hreads : Reads text items) {start : Nat}
    (h : Amends edits act start (start + text.length) (itemTags (start + 3) items)) :
    Edit.splicePart edits start text =
      ['/', '*', '*'] ++ (amend act (start + 3) items ++ ['*', '/']) := by
  have hplaced : ∀ tag ∈ itemTags (start + 3) items, tag.WellPlaced :=
    fun tag hmem => itemTags_wellPlaced hreads.name_ne_nil hmem
  have hlength := congrArg List.length hreads.text_eq
  simp only [List.length_append, List.length_cons, List.length_nil] at hlength
  obtain ⟨hopen, hbody⟩ := Amends.split (start + 3) [] _ h hplaced (by simp)
    (fun tag hmem => (itemTags_within hmem).1) (by omega) (by omega)
  obtain ⟨hitems, hclose⟩ := Amends.split
    (start + 3 + (items.flatMap Item.render).length) _ [] (by simpa using hbody)
    (by simpa using hplaced) (fun tag hmem => (itemTags_within hmem).2) (by simp) (by omega)
    (by omega)
  have hstop : start + text.length = start + 3 + (items.flatMap Item.render).length + 2 := by
    omega
  rw [hstop] at hclose
  have hdelimiter : ['/', '*', '*'].length = 3 := rfl
  rw [hreads.text_eq, Edit.splicePart_append, Edit.splicePart_append, hdelimiter,
    hopen.copied ['/', '*', '*'],
    splicePart_items hdescending hreads.name_ne_nil hitems,
    hclose.copied ['*', '/']]

/-- A comment whose tags are amended in the text around it has, wherever it is read again,
the tags that stay. -/
theorem name_tags_splicePart (hdescending : Edit.Descending edits) (text : Text) (start : Nat)
    (h : Amends edits act start (start + text.length) (ofText text start).value.tags)
    (place : Nat) :
    (ofText (Edit.splicePart edits start text) place).value.tags.map (·.name) =
      (ofText text start).value.tags.filterMap fun tag => (act tag).nameAfter tag := by
  rcases reads_or_tags_eq_nil text with ⟨items, hreads⟩ | hnone
  · rw [tags_of_reads hreads] at h ⊢
    obtain ⟨after, hafter, htags⟩ := reads_amend act hreads (start + 3)
    rw [splicePart_comment hdescending hreads h, tags_of_reads hafter, htags, name_amendedTags]
  · rw [hnone] at h ⊢
    rw [h.copied _, hnone]
    rfl

end OverrideLint.DocComment
