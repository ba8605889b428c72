import OverrideLint.Proofs.DocComment.Repair
import OverrideLint.Proofs.Rule.RepairSite

/-! The comments of a member, read again in the repaired text. Only the names of their
tags matter to the check of the member. -/
namespace OverrideLint

open DocComment

namespace FixResult

variable (result : FixResult) (source : Text)

def removes (span : Span) : Bool :=
  result.applied.any fun edit => edit.isDeletion && edit.span.contains span

/-- What is read between the places to which the ends of a comment have moved. -/
def reread (comment : DocComment) : DocComment :=
  let start := Edit.relocate result.applied source comment.span.start
  let stop := Edit.relocate result.applied source comment.span.stop
  (ofText (Text.slice result.text start stop) start).value

def remaining (docs : List DocComment) : List DocComment :=
  (docs.filter fun comment => !result.removes comment.span).map (result.reread source)

def inserted : List DocComment :=
  result.applied.filterMap fun
    | .insert offset text =>
      let start := Edit.relocate result.applied source offset
      some (ofText (Text.slice result.text start (start + (Text.trimRight text).length)) start).value
    | _ => none

end FixResult

def intendedNames (docs : List DocComment) : List String :=
  (docs.flatMap fun comment => comment.tags.map (·.name)).filter OverrideTag.isIntended

theorem intendedNames_append (a b : List DocComment) :
    intendedNames (a ++ b) = intendedNames a ++ intendedNames b := by
  unfold intendedNames
  rw [List.flatMap_append, List.filter_append]

private theorem name_intended (docs : List DocComment) :
    (TagScan.intended docs).map (·.2.name) = intendedNames docs := by
  unfold TagScan.intended intendedNames TagScan.occurrences
  simp only [List.filter_flatMap, List.map_flatMap, List.filter_map, List.map_map]
  rfl

namespace Rule

variable {ctx : RuleContext} {category : Category} {base : Option ResolvedType} {span : Span}
  {member : Member}

theorem diagnosticsOf_of_no_name (h : intendedNames member.docs = [])
    (hdecide : Outcome.decide category false base.isSome = .none) :
    diagnosticsOf ctx category base span member = [] := by
  rw [← name_intended, List.map_eq_nil_iff] at h
  unfold diagnosticsOf
  rw [TagScan.ofDocs_eq, h]
  simp only [TagScan.ofIntended, Option.isSome_none, hdecide]
  rfl

theorem diagnosticsOf_of_one_name (h : intendedNames member.docs = [overrideName])
    (hdecide : Outcome.decide category true base.isSome = .none) :
    diagnosticsOf ctx category base span member = [] := by
  rw [← name_intended, List.map_eq_singleton_iff] at h
  obtain ⟨occurrence, hintended, hname⟩ := h
  unfold diagnosticsOf
  rw [TagScan.ofDocs_eq, hintended]
  simp only [TagScan.ofIntended, Option.isSome_some, hdecide, TagScan.respelling, hname, if_true]
  rfl

end Rule

/-- Edits that amend the tags of some comments, or take comments away with their tags. -/
structure Settles (result : FixResult) (act : DocTag → Amendment) (docs : List DocComment) :
    Prop where
  amends : ∀ comment ∈ docs, result.removes comment.span = false →
    Amends result.applied act comment.span.start comment.span.stop comment.tags
  removed : ∀ comment ∈ docs, result.removes comment.span = true →
    ∀ tag ∈ comment.tags, act tag = .cut

private theorem reread_eq {source : Text} {result : FixResult} {comment : DocComment}
    (hspliced : result.Spliced source) (hslice : comment.IsSlice source) :
    result.reread source comment =
      (ofText (Edit.splicePart result.applied comment.span.start
          (Text.slice source comment.span.start comment.span.stop))
        (Edit.relocate result.applied source comment.span.start)).value := by
  unfold FixResult.reread
  dsimp only
  rw [hspliced.text_eq, Edit.slice_splice comment.span.start_le_stop hslice.within]

private theorem flatMap_map_filter {α β γ : Type} {keeps : α → Bool} {f : α → β} {g : β → List γ}
    {h : α → List γ} {l : List α} (hkept : ∀ a ∈ l, keeps a = true → g (f a) = h a)
    (hgone : ∀ a ∈ l, keeps a = false → h a = []) :
    ((l.filter keeps).map f).flatMap g = l.flatMap h := by
  induction l with
  | nil => rfl
  | cons a l ih =>
    have hrest := ih (fun b hb => hkept b (List.mem_cons_of_mem _ hb))
      fun b hb => hgone b (List.mem_cons_of_mem _ hb)
    rw [List.filter_cons, List.flatMap_cons]
    cases hkeeps : keeps a with
    | true =>
      rw [if_pos rfl, List.map_cons, List.flatMap_cons, hkept a List.mem_cons_self hkeeps, hrest]
    | false =>
      rw [if_neg Bool.false_ne_true, hgone a List.mem_cons_self hkeeps, hrest]
      rfl

private theorem names_remaining {source : Text} {result : FixResult} {act : DocTag → Amendment}
    {docs : List DocComment} (hspliced : result.Spliced source)
    (hslices : ∀ comment ∈ docs, comment.IsSlice source) (h : Settles result act docs) :
    ((result.remaining source docs).flatMap fun comment => comment.tags.map (·.name)) =
      docs.flatMap fun comment =>
        comment.tags.filterMap fun tag => (act tag).nameAfter tag := by
  apply flatMap_map_filter
  · intro comment hmem hkept
    have hslice := hslices comment hmem
    have hlength : comment.span.start +
        (Text.slice source comment.span.start comment.span.stop).length = comment.span.stop := by
      have hle := comment.span.start_le_stop
      have hin := hslice.within
      rw [Text.length_slice]
      omega
    have hamends := h.amends comment hmem (by simpa using hkept)
    have hnames := name_tags_splicePart hspliced.descending
      (Text.slice source comment.span.start comment.span.stop) comment.span.start
      (by rw [hlength, hslice.read]; exact hamends)
    rw [reread_eq hspliced hslice, hnames, hslice.read]
  · intro comment hmem hgone
    have hcut := h.removed comment hmem (by simpa using hgone)
    apply List.filterMap_eq_nil_iff.2
    intro tag htag
    rw [hcut tag htag]
    rfl

theorem intendedNames_remaining {source : Text} {result : FixResult} {act : DocTag → Amendment}
    {docs : List DocComment} (hspliced : result.Spliced source)
    (hslices : ∀ comment ∈ docs, comment.IsSlice source) (h : Settles result act docs)
    (hother : ∀ tag, OverrideTag.isIntended tag.name = false → act tag = .keep) :
    intendedNames (result.remaining source docs) =
      (TagScan.intended docs).filterMap fun occurrence =>
        (act occurrence.2).nameAfter occurrence.2 := by
  have htag (tag : DocTag) : ((act tag).nameAfter tag).filter OverrideTag.isIntended =
      if OverrideTag.isIntended tag.name then (act tag).nameAfter tag else none := by
    cases hintended : OverrideTag.isIntended tag.name with
    | false =>
      rw [hother tag hintended]
      simp [Amendment.nameAfter, hintended]
    | true =>
      have hoverride : OverrideTag.isIntended overrideName = true := by decide
      cases act tag <;> simp [Amendment.nameAfter, hintended, hoverride]
  rw [intendedNames, names_remaining hspliced hslices h, TagScan.intended, TagScan.occurrences,
    List.filterMap_filter, List.filterMap_flatMap, List.filter_flatMap]
  simp only [List.filter_filterMap, List.filterMap_map, htag]
  rfl

end OverrideLint
