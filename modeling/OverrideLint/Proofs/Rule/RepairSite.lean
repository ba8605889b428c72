import OverrideLint.Proofs.DocComment.Extent
import OverrideLint.Proofs.Edit.Compatible
import OverrideLint.Proofs.Rule.Member
import Mathlib.Data.List.Pairwise

/-! Where the repairs of a member lie. A repair of a tag stays within the tag, or it takes
a comment without other tags, with one blank behind it; so repairs of different tags
are apart from each other. -/
namespace OverrideLint

open OverrideTag

structure Occurs (text : Text) (occurrence : DocComment × DocTag) : Prop where
  isSlice : occurrence.1.IsSlice text
  mem : occurrence.2 ∈ occurrence.1.tags

inductive IsRepair (text : Text) (occurrence : DocComment × DocTag) : Edit → Prop
  | rename : IsRepair text occurrence (.replace occurrence.2.nameSpan overrideName.toList)
  | delete : IsRepair text occurrence (.delete occurrence.2.span)
  | whole (h : occurrence.1.tags.length = 1) :
    IsRepair text occurrence (.delete (wholeSpan text occurrence.1))

theorem isRepair_deleteOccurrence (text : Text) (occurrence : DocComment × DocTag) :
    IsRepair text occurrence (deleteOccurrence text occurrence.1 occurrence.2) := by
  unfold deleteOccurrence
  split
  · rename_i h
    exact .whole h.1
  · exact .delete

theorem start_wholeSpan (text : Text) (comment : DocComment) :
    (wholeSpan text comment).start = comment.span.start := by
  unfold wholeSpan
  dsimp only
  split <;> rfl

theorem stop_wholeSpan_le {text : Text} {comment : DocComment} {offset : Nat}
    (hle : comment.span.stop ≤ offset)
    (hblank : text[offset]? ≠ some ' ' ∧ text[offset]? ≠ some '\t') :
    (wholeSpan text comment).stop ≤ offset := by
  unfold wholeSpan
  dsimp only
  split
  · rename_i hnext
    have hne : comment.span.stop ≠ offset := by
      rintro rfl
      rcases hnext with hnext | hnext
      · exact hblank.1 hnext
      · exact hblank.2 hnext
    dsimp only
    omega
  · exact hle

theorem stop_le_stop_wholeSpan (text : Text) (comment : DocComment) :
    comment.span.stop ≤ (wholeSpan text comment).stop := by
  unfold wholeSpan
  dsimp only
  split
  · exact Nat.le_succ _
  · exact Nat.le_refl _

private theorem stop_wholeSpan_le_length {text : Text} {comment : DocComment}
    (h : comment.span.stop ≤ text.length) : (wholeSpan text comment).stop ≤ text.length := by
  apply stop_wholeSpan_le h
  rw [List.getElem?_eq_none (Nat.le_refl _)]
  exact ⟨nofun, nofun⟩

namespace IsRepair

variable {text : Text} {occurrence other : DocComment × DocTag} {edit edit' : Edit}

theorem extent (h : IsRepair text occurrence edit) (hoccurs : Occurs text occurrence) :
    occurrence.1.span.start ≤ edit.span.start ∧ edit.span.start < edit.span.stop ∧
      edit.span.stop ≤ (wholeSpan text occurrence.1).stop := by
  have hplaced := hoccurs.isSlice.wellPlaced
  have htag := (hplaced.tags _ hoccurs.mem).bounds
  have hcomment := hplaced.bounds hoccurs.mem
  have hwhole := stop_le_stop_wholeSpan text occurrence.1
  cases h with
  | rename =>
    dsimp only [Edit.span]
    omega
  | delete =>
    dsimp only [Edit.span]
    omega
  | whole =>
    dsimp only [Edit.span]
    rw [start_wholeSpan]
    omega

theorem within_tag (h : IsRepair text occurrence edit) (hoccurs : Occurs text occurrence)
    (htags : occurrence.1.tags.length ≠ 1) :
    occurrence.2.span.start ≤ edit.span.start ∧ edit.span.stop ≤ occurrence.2.span.stop := by
  have htag := (hoccurs.isSlice.wellPlaced.tags _ hoccurs.mem).bounds
  cases h with
  | rename =>
    dsimp only [Edit.span]
    omega
  | delete => exact ⟨Nat.le_refl _, Nat.le_refl _⟩
  | whole hone => exact absurd hone htags

theorem stop_le_length (h : IsRepair text occurrence edit) (hoccurs : Occurs text occurrence) :
    edit.span.stop ≤ text.length :=
  Nat.le_trans (h.extent hoccurs).2.2 (stop_wholeSpan_le_length hoccurs.isSlice.within)

end IsRepair

/-- Two tags in different comments, or one behind the other in a comment. -/
def Apart (a b : DocComment × DocTag) : Prop :=
  a.1.span.overlaps b.1.span = false ∨
    a.1 = b.1 ∧ a.1.tags.length ≠ 1 ∧ a.2.span.stop ≤ b.2.span.start

theorem IsRepair.stop_le_start {text : Text} {a b : DocComment × DocTag} {edit : Edit}
    (h : IsRepair text a edit) (ha : Occurs text a) (hb : Occurs text b)
    (hle : a.1.span.stop ≤ b.1.span.start) : edit.span.stop ≤ b.1.span.start := by
  have hslash := hb.isSlice.head_of_mem hb.mem
  apply Nat.le_trans (h.extent ha).2.2
  apply stop_wholeSpan_le hle
  rw [hslash]
  decide

theorem IsRepair.conflicts_eq_false {text : Text} {a b : DocComment × DocTag} {edit edit' : Edit}
    (hapart : Apart a b) (ha : Occurs text a) (hb : Occurs text b) (h : IsRepair text a edit)
    (h' : IsRepair text b edit') : edit.conflicts edit' = false := by
  have hextent := h.extent ha
  have hextent' := h'.extent hb
  rcases hapart with hapart | ⟨hsame, htags, hle⟩
  · rcases Span.overlaps_eq_false.1 hapart with hafter | hbefore
    · rw [Edit.conflicts_comm]
      apply Edit.conflicts_eq_false_of_le hextent'.2.1
      have := h'.stop_le_start hb ha hafter
      omega
    · apply Edit.conflicts_eq_false_of_le hextent.2.1
      have := h.stop_le_start ha hb hbefore
      omega
  · have hwithin := h.within_tag ha htags
    have hwithin' := h'.within_tag hb (hsame ▸ htags)
    apply Edit.conflicts_eq_false_of_le hextent.2.1
    omega

private theorem pairwise_and_length_ne_one {α : Type} {R : α → α → Prop} {l : List α}
    (h : l.Pairwise R) : l.Pairwise fun a b => l.length ≠ 1 ∧ R a b := by
  match l with
  | [] => exact List.Pairwise.nil
  | [a] => exact List.pairwise_singleton ..
  | a :: b :: rest =>
    refine h.imp ?_
    intro x y hxy
    exact ⟨by simp, hxy⟩

/-- The comments of a member, read where they stand and disjoint from each other. -/
structure Attached (text : Text) (docs : List DocComment) : Prop where
  isSlice : ∀ comment ∈ docs, comment.IsSlice text
  disjoint : docs.Pairwise fun a b => a.span.overlaps b.span = false

namespace Attached

variable {text : Text} {docs : List DocComment}

theorem occurs (h : Attached text docs) {occurrence : DocComment × DocTag}
    (hmem : occurrence ∈ TagScan.intended docs) :
    Occurs text occurrence ∧ occurrence.1 ∈ docs := by
  obtain ⟨hcomment, htag, _⟩ := TagScan.mem_intended.1 hmem
  exact ⟨⟨h.isSlice occurrence.1 hcomment, htag⟩, hcomment⟩

theorem apart (h : Attached text docs) : (TagScan.intended docs).Pairwise Apart := by
  apply List.Pairwise.filter
  unfold TagScan.occurrences
  apply List.pairwise_flatMap.2
  constructor
  · intro comment hcomment
    apply List.pairwise_map.2
    refine (pairwise_and_length_ne_one (h.isSlice comment hcomment).wellPlaced.ordered).imp ?_
    rintro a b ⟨hlength, hle⟩
    exact .inr ⟨rfl, hlength, hle⟩
  · refine h.disjoint.imp ?_
    intro a b hdisjoint x hx y hy
    obtain ⟨_, _, rfl⟩ := List.mem_map.1 hx
    obtain ⟨_, _, rfl⟩ := List.mem_map.1 hy
    exact .inl hdisjoint

end Attached
end OverrideLint
