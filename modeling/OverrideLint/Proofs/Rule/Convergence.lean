import OverrideLint.Proofs.Rule.Harmony
import OverrideLint.Proofs.Rule.Reread

/-! A member that was repaired once is not reported again. Its repairs amend its comments
so that no tag is left which does not belong there, and exactly one where one does. -/
namespace OverrideLint

open DocComment OverrideTag

/-- Comments before a member that starts at an offset: each was read where it stands and
opens with a slash, and they stand one behind the other. -/
structure LaidOut (text : Text) (start : Nat) (docs : List DocComment) : Prop where
  isSlice : ∀ comment ∈ docs, comment.IsSlice text
  opened : ∀ comment ∈ docs,
    (Text.slice text comment.span.start comment.span.stop).head? = some '/'
  ordered : docs.Pairwise fun a b => a.span.stop ≤ b.span.start
  before : ∀ comment ∈ docs, comment.span.stop ≤ start
  within : start ≤ text.length

namespace LaidOut

variable {text : Text} {start : Nat} {docs : List DocComment}

theorem attached (h : LaidOut text start docs) : Attached text docs := by
  refine ⟨h.isSlice, h.ordered.imp ?_⟩
  intro a b hle
  rw [Span.overlaps_eq_false]
  exact .inr hle

theorem slash (h : LaidOut text start docs) {comment : DocComment} (hmem : comment ∈ docs) :
    comment.span.start < comment.span.stop ∧ text[comment.span.start]? = some '/' := by
  have hopened := h.opened comment hmem
  rw [Text.slice, List.head?_take, List.head?_drop] at hopened
  split at hopened
  · cases hopened
  · exact ⟨by omega, hopened⟩

theorem sides (h : LaidOut text start docs) {a b : DocComment} (ha : a ∈ docs) (hb : b ∈ docs)
    (hne : a ≠ b) : a.span.stop ≤ b.span.start ∨ b.span.stop ≤ a.span.start := by
  have hsymm : Std.Symm fun a b : DocComment =>
      a.span.stop ≤ b.span.start ∨ b.span.stop ≤ a.span.start := ⟨fun _ _ => Or.symm⟩
  have heither : docs.Pairwise fun a b =>
      a.span.stop ≤ b.span.start ∨ b.span.stop ≤ a.span.start := h.ordered.imp Or.inl
  exact heither.forall ha hb hne

theorem clear (h : LaidOut text start docs) {occurrence : DocComment × DocTag} {edit : Edit}
    (hoccurrence : occurrence ∈ TagScan.intended docs) (hrepair : IsRepair text occurrence edit)
    {comment : DocComment} (hmem : comment ∈ docs) (hne : occurrence.1 ≠ comment) :
    edit.span.stop ≤ comment.span.start ∨ comment.span.stop ≤ edit.span.start := by
  obtain ⟨hoccurs, hdocs⟩ := h.attached.occurs hoccurrence
  obtain ⟨hstart, _, hstop⟩ := hrepair.extent hoccurs
  rcases h.sides hdocs hmem hne with hle | hle
  · left
    apply Nat.le_trans hstop
    apply stop_wholeSpan_le hle
    rw [(h.slash hmem).2]
    decide
  · right
    exact Nat.le_trans hle hstart

theorem fst_eq_of_touches (h : LaidOut text start docs) {occurrence : DocComment × DocTag}
    {edit : Edit} (hoccurrence : occurrence ∈ TagScan.intended docs)
    (hrepair : IsRepair text occurrence edit) {comment : DocComment} (hmem : comment ∈ docs)
    (htouches : edit.Touches comment.span.start comment.span.stop) : occurrence.1 = comment := by
  by_contra hne
  have hlt := (hrepair.extent (h.attached.occurs hoccurrence).1).2.1
  unfold Edit.Touches at htouches
  rcases h.clear hoccurrence hrepair hmem hne with hle | hle
  · omega
  · omega

theorem touches_of_contains (h : LaidOut text start docs) {edit : Edit} {comment : DocComment}
    (hmem : comment ∈ docs) (hcontains : edit.span.contains comment.span = true) :
    edit.Touches comment.span.start comment.span.stop := by
  have hlt := (h.slash hmem).1
  rw [Span.contains_eq_true] at hcontains
  unfold Edit.Touches
  omega

variable {category : Category} {baseFound : Bool}

theorem applyEdits_repairs (h : LaidOut text start docs) (category : Category)
    (baseFound : Bool) :
    (applyEdits text (Rule.repairs text category baseFound start
        (TagScan.intended docs))).skipped = [] ∧
      ∀ edit, edit ∈ (applyEdits text (Rule.repairs text category baseFound start
          (TagScan.intended docs))).applied ↔
        edit ∈ Rule.repairs text category baseFound start (TagScan.intended docs) ∧
          ∀ deletion ∈ Rule.repairs text category baseFound start (TagScan.intended docs),
            ¬ edit.SwallowedBy deletion := by
  apply applyEdits_of_compatible
  · intro edit hedit
    rcases Rule.mem_repairs hedit with ⟨occurrence, hoccurrence, hrepair⟩ | rfl
    · exact hrepair.stop_le_length (h.attached.occurs hoccurrence).1
    · exact h.within
  · apply compatible_of_harmonious _ (Rule.pairwise_repairs h.attached)
    intro tag htag
    obtain ⟨comment, hcomment, htag⟩ := List.mem_flatMap.1 htag
    exact (h.isSlice comment hcomment).wellPlaced.tags tag htag

theorem not_swallowedBy (h : LaidOut text start docs) {edit deletion : Edit}
    (hedit : edit ∈ Rule.repairs text category baseFound start (TagScan.intended docs))
    (hdeletion : deletion ∈ Rule.repairs text category baseFound start (TagScan.intended docs))
    (hisDeletion : edit.isDeletion = true) : ¬ edit.SwallowedBy deletion := by
  intro hswallowed
  have hharmony : Harmonious (docs.flatMap (·.tags)) edit deletion :=
    (Rule.pairwise_repairs h.attached).forall hedit hdeletion hswallowed.ne.symm
  obtain ⟨tag, _, rfl, _⟩ := hharmony.renamedAndDeleted hswallowed
  cases hisDeletion

end LaidOut

namespace Rule

private def amendment (found : DocTag) (deleted : Bool) (tag : DocTag) : Amendment :=
  if isIntended tag.name = false then .keep
  else if tag = found then
    if deleted then .cut else if tag.name = overrideName then .keep else .rename
  else .cut

variable {text : Text} {start : Nat} {docs : List DocComment} {category : Category}
  {baseFound : Bool} {first : DocComment × DocTag} {later : List (DocComment × DocTag)}

private theorem ne_of_apart {a b : DocComment × DocTag} (ha : Occurs text a) (hb : Occurs text b)
    (h : Apart a b) : a.2 ≠ b.2 := by
  have hbounds := ha.isSlice.wellPlaced.bounds ha.mem
  have hbounds' := hb.isSlice.wellPlaced.bounds hb.mem
  intro heq
  rw [heq] at hbounds
  rcases h with hoverlaps | ⟨_, _, hle⟩
  · rw [Span.overlaps_eq_false] at hoverlaps
    omega
  · rw [heq] at hle
    omega

private theorem not_contains {occurrence : DocComment × DocTag} (h : Occurs text occurrence) :
    ¬ occurrence.2.span.contains occurrence.1.span = true := by
  have hopened := h.isSlice.wellPlaced.opened _ h.mem
  rw [Span.contains_eq_true]
  omega

private theorem deleteOccurrence_of_not_removes {result : FixResult}
    {occurrence : DocComment × DocTag}
    (hmem : deleteOccurrence text occurrence.1 occurrence.2 ∈ result.applied)
    (hstays : result.removes occurrence.1.span = false) :
    deleteOccurrence text occurrence.1 occurrence.2 = .delete occurrence.2.span := by
  unfold deleteOccurrence at hmem ⊢
  split
  · rename_i hwhole
    rw [if_pos hwhole] at hmem
    have hcontains : (wholeSpan text occurrence.1).contains occurrence.1.span = true := by
      rw [Span.contains_eq_true, start_wholeSpan]
      exact ⟨Nat.le_refl _, stop_le_stop_wholeSpan text occurrence.1⟩
    have hremoves : result.removes occurrence.1.span = true :=
      List.any_eq_true.2 ⟨_, hmem, hcontains⟩
    rw [hstays] at hremoves
    cases hremoves
  · rfl

private theorem amendment_found {found : DocTag} {deleted : Bool}
    (h : isIntended found.name = true) :
    amendment found deleted found =
      if deleted then .cut else if found.name = overrideName then .keep else .rename := by
  rw [amendment, if_neg (by simp [h]), if_pos rfl]

private theorem amendment_of_ne {found tag : DocTag} {deleted : Bool}
    (h : isIntended tag.name = true) (hne : tag ≠ found) : amendment found deleted tag = .cut := by
  rw [amendment, if_neg (by simp [h]), if_neg hne]

variable {result : FixResult}

private theorem settles_of_nil (h : LaidOut text start docs)
    (hintended : TagScan.intended docs = []) (happlied : ∀ edit ∈ result.applied,
      edit ∈ repairs text category baseFound start (TagScan.intended docs)) :
    Settles result (fun _ => .keep) docs := by
  have hinsert : ∀ edit ∈ result.applied, edit = .insert start overrideComment := by
    intro edit hedit
    rcases mem_repairs (happlied edit hedit) with ⟨occurrence, hmem, _⟩ | hinsert
    · rw [hintended] at hmem
      cases hmem
    · exact hinsert
  refine ⟨?_, ?_⟩
  · intro comment hcomment _
    refine ⟨nofun, ?_⟩
    intro edit hedit htouches
    rw [hinsert edit hedit] at htouches
    exact absurd (h.before comment hcomment) (Nat.not_le.2 htouches.1)
  · intro comment _ hremoves
    obtain ⟨edit, hedit, hdeletion⟩ := List.any_eq_true.1 hremoves
    rw [hinsert edit hedit] at hdeletion
    cases hdeletion

section Found

variable (h : LaidOut text start docs) (hintended : TagScan.intended docs = first :: later)
  (happlied : ∀ edit, edit ∈ result.applied ↔
    edit ∈ repairs text category baseFound start (TagScan.intended docs) ∧
      ∀ deletion ∈ repairs text category baseFound start (TagScan.intended docs),
        ¬ edit.SwallowedBy deletion)

include h hintended

omit h in
private theorem mem_intended {occurrence : DocComment × DocTag}
    (hmem : occurrence ∈ first :: later) :
    occurrence ∈ TagScan.intended docs := by
  rw [hintended]
  exact hmem

private theorem occurs_intended {occurrence : DocComment × DocTag}
    (hmem : occurrence ∈ first :: later) :
    Occurs text occurrence ∧ isIntended occurrence.2.name = true := by
  have hmem := mem_intended hintended hmem
  exact ⟨(h.attached.occurs hmem).1, (List.mem_filter.1 hmem).2⟩

private theorem apart_first {occurrence : DocComment × DocTag} (hmem : occurrence ∈ later) :
    Apart first occurrence := by
  have hapart := h.attached.apart
  rw [hintended] at hapart
  exact (List.pairwise_cons.1 hapart).1 occurrence hmem

private theorem amendment_later (deleted : Bool) {occurrence : DocComment × DocTag}
    (hmem : occurrence ∈ later) : amendment first.2 deleted occurrence.2 = .cut := by
  obtain ⟨hoccurs, hname⟩ := occurs_intended h hintended (List.mem_cons_of_mem _ hmem)
  have hfirst := (occurs_intended h hintended List.mem_cons_self).1
  exact amendment_of_ne hname (ne_of_apart hfirst hoccurs (apart_first h hintended hmem)).symm

private theorem rename_not_swallowedBy (hstays : Outcome.decide category true baseFound = .none)
    {deletion : Edit}
    (hdeletion : deletion ∈ repairs text category baseFound start (first :: later)) :
    ¬ (Edit.replace first.2.nameSpan overrideName.toList).SwallowedBy deletion := by
  intro hswallowed
  rcases mem_repairs_cons.1 hdeletion with ⟨_, rfl⟩ | ⟨occurrence, hmem, rfl⟩ | ⟨hdeletes, _⟩
  · exact hswallowed.ne rfl
  · have hfree := IsRepair.conflicts_eq_false (apart_first h hintended hmem)
      (occurs_intended h hintended List.mem_cons_self).1
      (occurs_intended h hintended (List.mem_cons_of_mem _ hmem)).1 .rename
      (isRepair_deleteOccurrence text occurrence)
    rw [hswallowed.conflicts] at hfree
    cases hfree
  · exact hdeletes hstays

include happlied

private theorem made_first {edit : Edit}
    (hedit : (amendment first.2 (Outcome.decide category true baseFound != .none)
      first.2).edit? first.2 = some edit) : edit ∈ result.applied := by
  rw [happlied, hintended]
  rw [amendment_found (occurs_intended h hintended List.mem_cons_self).2] at hedit
  by_cases hdeletes : Outcome.decide category true baseFound = .none
  · rw [hdeletes, bne_self_eq_false, if_neg Bool.false_ne_true] at hedit
    split at hedit
    · cases hedit
    · rename_i hspelling
      cases hedit
      refine ⟨mem_repairs_cons.2 (.inl ⟨hspelling, rfl⟩), ?_⟩
      intro deletion hdeletion
      exact rename_not_swallowedBy h hintended hdeletes hdeletion
  · rw [if_pos (by simpa using hdeletes)] at hedit
    cases hedit
    have hdelete : Edit.delete first.2.span ∈
        repairs text category baseFound start (first :: later) :=
      mem_repairs_cons.2 (.inr (.inr ⟨hdeletes, rfl⟩))
    refine ⟨hdelete, ?_⟩
    rw [← hintended] at hdelete ⊢
    intro deletion hdeletion
    exact h.not_swallowedBy hdelete hdeletion rfl

private theorem deleteOccurrence_applied {occurrence : DocComment × DocTag}
    (hlater : occurrence ∈ later) :
    deleteOccurrence text occurrence.1 occurrence.2 ∈ result.applied := by
  have hdelete : deleteOccurrence text occurrence.1 occurrence.2 ∈
      repairs text category baseFound start (TagScan.intended docs) := by
    rw [hintended]
    exact mem_repairs_cons.2 (.inr (.inl ⟨occurrence, hlater, rfl⟩))
  have hisDeletion : (deleteOccurrence text occurrence.1 occurrence.2).isDeletion = true := by
    unfold deleteOccurrence
    split <;> rfl
  rw [happlied]
  refine ⟨hdelete, ?_⟩
  intro deletion hdeletion
  exact h.not_swallowedBy hdelete hdeletion hisDeletion

private theorem made_of_found {comment : DocComment} (hcomment : comment ∈ docs)
    (hstays : result.removes comment.span = false) {tag : DocTag} (htag : tag ∈ comment.tags)
    {edit : Edit}
    (hedit : (amendment first.2 (Outcome.decide category true baseFound != .none) tag).edit? tag =
      some edit) : edit ∈ result.applied := by
  by_cases hfirst : tag = first.2
  · subst hfirst
    exact made_first h hintended happlied hedit
  have hname : isIntended tag.name = true := by
    cases hname : isIntended tag.name with
    | true => rfl
    | false =>
      rw [amendment, if_pos hname] at hedit
      cases hedit
  rw [amendment_of_ne hname hfirst] at hedit
  cases hedit
  have hmem : (comment, tag) ∈ first :: later := by
    rw [← hintended]
    refine List.mem_filter.2 ⟨?_, hname⟩
    exact List.mem_flatMap.2 ⟨comment, hcomment, List.mem_map_of_mem htag⟩
  have hlater : (comment, tag) ∈ later := by
    rcases List.mem_cons.1 hmem with heq | hlater
    · exact absurd (congrArg Prod.snd heq) hfirst
    · exact hlater
  have hmade := deleteOccurrence_applied h hintended happlied hlater
  rw [deleteOccurrence_of_not_removes hmade hstays] at hmade
  exact hmade

private theorem only_of_found {comment : DocComment} (hcomment : comment ∈ docs)
    (hstays : result.removes comment.span = false) {edit : Edit} (hedit : edit ∈ result.applied)
    (htouches : edit.Touches comment.span.start comment.span.stop) :
    ∃ tag ∈ comment.tags,
      (amendment first.2 (Outcome.decide category true baseFound != .none) tag).edit? tag =
        some edit := by
  obtain ⟨hrepairs, hfree⟩ := (happlied edit).1 hedit
  rw [hintended] at hrepairs hfree
  obtain ⟨hoccursFirst, hnameFirst⟩ := occurs_intended h hintended List.mem_cons_self
  have hmemFirst : first ∈ TagScan.intended docs := mem_intended hintended List.mem_cons_self
  rcases mem_repairs_cons.1 hrepairs with ⟨hspelling, rfl⟩ | ⟨occurrence, hlater, rfl⟩ |
    ⟨hdeletes, rfl⟩
  · have hcomment' := h.fst_eq_of_touches hmemFirst .rename hcomment htouches
    have hdeletes : Outcome.decide category true baseFound = .none := by
      by_contra hdeletes
      apply hfree (.delete first.2.span) (mem_repairs_cons.2 (.inr (.inr ⟨hdeletes, rfl⟩)))
      have hboth : RenamedAndDeleted first.1.tags (.replace first.2.nameSpan overrideName.toList)
          (.delete first.2.span) :=
        ⟨first.2, hoccursFirst.mem, rfl, rfl⟩
      exact hboth.swallowedBy hoccursFirst.isSlice.wellPlaced.tags
    refine ⟨first.2, hcomment' ▸ hoccursFirst.mem, ?_⟩
    rw [amendment_found hnameFirst, hdeletes, bne_self_eq_false, if_neg Bool.false_ne_true,
      if_neg hspelling]
    rfl
  · have hmem := mem_intended hintended (List.mem_cons_of_mem _ hlater)
    have hcomment' := h.fst_eq_of_touches hmem (isRepair_deleteOccurrence text occurrence)
      hcomment htouches
    subst hcomment'
    refine ⟨occurrence.2, (h.attached.occurs hmem).1.mem, ?_⟩
    rw [amendment_later h hintended _ hlater, deleteOccurrence_of_not_removes hedit hstays]
    rfl
  · have hcomment' := h.fst_eq_of_touches hmemFirst .delete hcomment htouches
    refine ⟨first.2, hcomment' ▸ hoccursFirst.mem, ?_⟩
    rw [amendment_found hnameFirst, if_pos (by simpa using hdeletes)]
    rfl

private theorem cut_of_removes {comment : DocComment} (hcomment : comment ∈ docs)
    (hremoves : result.removes comment.span = true) {tag : DocTag} (htag : tag ∈ comment.tags) :
    amendment first.2 (Outcome.decide category true baseFound != .none) tag = .cut := by
  obtain ⟨edit, hedit, hdeletion⟩ := List.any_eq_true.1 hremoves
  obtain ⟨hisDeletion, hcontains⟩ := (Bool.and_eq_true_iff).1 hdeletion
  have htouches := h.touches_of_contains hcomment hcontains
  have hrepairs := ((happlied edit).1 hedit).1
  rw [hintended] at hrepairs
  rcases mem_repairs_cons.1 hrepairs with ⟨_, rfl⟩ | ⟨occurrence, hlater, rfl⟩ | ⟨_, rfl⟩
  · cases hisDeletion
  · have hmem := mem_intended hintended (List.mem_cons_of_mem _ hlater)
    have hoccurs := (h.attached.occurs hmem).1
    have hcomment' := h.fst_eq_of_touches hmem (isRepair_deleteOccurrence text occurrence)
      hcomment htouches
    subst hcomment'
    unfold deleteOccurrence at hcontains
    split at hcontains
    · rename_i hwhole
      obtain ⟨only, honly⟩ := List.length_eq_one_iff.1 hwhole.1
      have hmemTag := hoccurs.mem
      rw [honly, List.mem_singleton] at hmemTag htag
      rw [htag, ← hmemTag]
      exact amendment_later h hintended _ hlater
    · exact absurd hcontains (not_contains hoccurs)
  · have hcomment' := h.fst_eq_of_touches (mem_intended hintended List.mem_cons_self) .delete
      hcomment htouches
    subst hcomment'
    exact absurd hcontains (not_contains (occurs_intended h hintended List.mem_cons_self).1)

private theorem settles_of_cons :
    Settles result (amendment first.2 (Outcome.decide category true baseFound != .none)) docs := by
  refine ⟨?_, ?_⟩
  · intro comment hcomment hstays
    refine ⟨?_, ?_⟩
    · intro tag htag edit hedit
      exact made_of_found h hintended happlied hcomment hstays htag hedit
    · intro edit hedit htouches
      exact only_of_found h hintended happlied hcomment hstays hedit htouches
  · intro comment hcomment hremoves tag htag
    exact cut_of_removes h hintended happlied hcomment hremoves htag

end Found

private theorem name_overrideComment (start : Nat) :
    (ofText (Text.trimRight overrideComment) start).value.tags.map (·.name) = [overrideName] := by
  have hhere : (ofText (Text.trimRight overrideComment) 0).value.tags.map (·.name) =
      [overrideName] := by
    decide +kernel
  rw [name_tags_ofText _ start 0, hhere]

private theorem intendedNames_inserted {source : Text} (hspliced : result.Spliced source)
    (hin : start ≤ source.length)
    (happlied : ∀ edit, edit ∈ result.applied ↔ edit = .insert start overrideComment) :
    intendedNames (result.inserted source) = [overrideName] := by
  have hnodup := hspliced.descending.nodup
  have hwritten : Edit.writtenAt result.applied start = overrideComment :=
    Edit.writtenAt_of_unique hnodup ((happlied _).2 rfl) fun other hother _ =>
      (happlied other).1 hother
  have hbegins : Text.trimRight overrideComment <+: Edit.writtenAt result.applied start :=
    ⟨Text.trailing overrideComment, by rw [hwritten, Text.trimRight_append_trailing]⟩
  have hread := Edit.slice_splice_written hin hbegins
  rw [← hspliced.text_eq] at hread
  have hinserted : result.inserted source =
      [(ofText (Text.trimRight overrideComment)
        (Edit.relocate result.applied source start)).value] := by
    have hone := Edit.eq_singleton_of_nodup hnodup happlied
    rw [← hread, FixResult.inserted]
    generalize Edit.relocate result.applied source = relocate
    rw [hone]
    rfl
  rw [intendedNames, hinserted, List.flatMap_singleton, name_overrideComment]
  decide

private theorem inserted_eq_nil {source : Text}
    (happlied : ∀ edit ∈ result.applied, ∀ offset written, edit ≠ .insert offset written) :
    result.inserted source = [] := by
  apply List.filterMap_eq_nil_iff.2
  intro edit hedit
  cases edit with
  | insert offset written => exact absurd rfl (happlied _ hedit offset written)
  | delete span => rfl
  | replace span written => rfl

private theorem decide_false_of_true (h : Outcome.decide category true baseFound ≠ .none) :
    Outcome.decide category false baseFound = .none := by
  cases category <;> cases baseFound <;> first | rfl | exact absurd rfl h

private theorem decide_true_of_false (h : Outcome.decide category false baseFound ≠ .none) :
    Outcome.decide category true baseFound = .none := by
  cases category <;> cases baseFound <;> first | rfl | exact absurd rfl h

/-- The names of the override tags of a member are as its category and its base type ask
for. -/
def Suits (category : Category) (baseFound : Bool) (names : List String) : Prop :=
  names = [] ∧ Outcome.decide category false baseFound = .none ∨
    names = [overrideName] ∧ Outcome.decide category true baseFound = .none

private theorem diagnosticsOf_of_suits {ctx : RuleContext} {base : Option ResolvedType}
    {span : Span} {member : Member} (h : Suits category base.isSome (intendedNames member.docs)) :
    diagnosticsOf ctx category base span member = [] := by
  rcases h with ⟨hnone, hdecide⟩ | ⟨hname, hdecide⟩
  · exact diagnosticsOf_of_no_name hnone hdecide
  · exact diagnosticsOf_of_one_name hname hdecide

section Repaired

variable (h : LaidOut text start docs) (hspliced : result.Spliced text)
  (happlied : ∀ edit, edit ∈ result.applied ↔
    edit ∈ repairs text category baseFound start (TagScan.intended docs) ∧
      ∀ deletion ∈ repairs text category baseFound start (TagScan.intended docs),
        ¬ edit.SwallowedBy deletion)

include h hspliced happlied

private theorem suits_inserted (hintended : TagScan.intended docs = []) :
    Suits category baseFound (intendedNames (result.inserted text)) ∧
      intendedNames (result.remaining text docs) = [] := by
  have hsettles := settles_of_nil h hintended fun edit hedit => ((happlied edit).1 hedit).1
  constructor
  · rw [hintended] at happlied
    by_cases hdecide : Outcome.decide category false baseFound = .none
    · left
      rw [repairs, if_pos hdecide] at happlied
      rw [inserted_eq_nil fun edit hedit => absurd ((happlied edit).1 hedit).1 List.not_mem_nil]
      exact ⟨rfl, hdecide⟩
    · right
      rw [repairs, if_neg hdecide] at happlied
      refine ⟨intendedNames_inserted hspliced h.within ?_, decide_true_of_false hdecide⟩
      intro edit
      rw [happlied, List.mem_singleton]
      refine and_iff_left_of_imp ?_
      rintro rfl deletion hdeletion hswallowed
      exact hswallowed.ne (List.mem_singleton.1 hdeletion)
  · rw [intendedNames_remaining hspliced h.isSlice hsettles fun _ _ => rfl, hintended]
    rfl

omit h hspliced in
private theorem inserted_of_cons (hintended : TagScan.intended docs = first :: later) :
    result.inserted text = [] := by
  apply inserted_eq_nil
  rintro edit hedit offset written rfl
  have hmem := ((happlied _).1 hedit).1
  rw [hintended] at hmem
  rcases mem_repairs_cons.1 hmem with ⟨_, heq⟩ | ⟨occurrence, _, heq⟩ | ⟨_, heq⟩
  · cases heq
  · unfold deleteOccurrence at heq
    split at heq <;> cases heq
  · cases heq

private theorem suits_remaining (hintended : TagScan.intended docs = first :: later) :
    Suits category baseFound (intendedNames (result.remaining text docs)) := by
  have hremaining := intendedNames_remaining hspliced h.isSlice
    (settles_of_cons h hintended happlied) fun tag htag => by rw [amendment, if_pos htag]
  have hlater : (later.filterMap fun occurrence =>
      (amendment first.2 (Outcome.decide category true baseFound != .none)
        occurrence.2).nameAfter occurrence.2) = [] := by
    apply List.filterMap_eq_nil_iff.2
    intro occurrence hoccurrence
    rw [amendment_later h hintended _ hoccurrence]
    rfl
  rw [hintended, List.filterMap_cons, hlater,
    amendment_found (occurs_intended h hintended List.mem_cons_self).2] at hremaining
  rw [hremaining]
  by_cases hdecide : Outcome.decide category true baseFound = .none
  · right
    rw [hdecide, bne_self_eq_false, if_neg Bool.false_ne_true]
    refine ⟨?_, rfl⟩
    by_cases hname : first.2.name = overrideName
    · rw [if_pos hname, Amendment.nameAfter, hname]
    · rw [if_neg hname]
      rfl
  · left
    rw [if_pos (by simpa using hdecide)]
    exact ⟨rfl, decide_false_of_true hdecide⟩

/-- The inserted comment and those that remain have the tags that the member needs, in
either order. -/
theorem suits_repaired :
    Suits category baseFound
        (intendedNames (result.inserted text ++ result.remaining text docs)) ∧
      Suits category baseFound
        (intendedNames (result.remaining text docs ++ result.inserted text)) := by
  rw [intendedNames_append, intendedNames_append]
  cases hintended : TagScan.intended docs with
  | nil =>
    obtain ⟨hsuits, hnone⟩ := suits_inserted h hspliced happlied hintended
    rw [hnone, List.append_nil, List.nil_append]
    exact ⟨hsuits, hsuits⟩
  | cons first later =>
    have hsuits := suits_remaining h hspliced happlied hintended
    rw [inserted_of_cons happlied hintended]
    exact ⟨hsuits, (List.append_nil _).symm ▸ hsuits⟩

end Repaired

variable {σ τ : Type}

def repairMember (resolve : TypeReference → StateT σ Logged Resolution) (ctx : RuleContext)
    (visit : Visit) (member : Member) (state : σ) : FixResult :=
  applyEdits ctx.text (fixesOf (returned (checkMember resolve ctx visit member) state))

/-- One repair of a member is enough. No edit is skipped; and a member of the same category,
for which the same base type is found, has no diagnostics when its comments are those that
remain, with the inserted one before or behind them. -/
theorem repairMember_converges (resolve : TypeReference → StateT σ Logged Resolution)
    (ctx : RuleContext) (visit : Visit) (member : Member) (state : σ)
    (h : LaidOut ctx.text visit.node.span.start member.docs) :
    (repairMember resolve ctx visit member state).skipped = [] ∧
      ∀ (resolve' : TypeReference → StateT τ Logged Resolution) (ctx' : RuleContext)
        (visit' : Visit) (member' : Member) (state' : τ),
        Category.ofMember visit'.parent visit'.node.kind member' =
          Category.ofMember visit.parent visit.node.kind member →
        returned (baseOf resolve' visit'.parent
            (Category.ofMember visit'.parent visit'.node.kind member') member') state' =
          returned (baseOf resolve visit.parent
            (Category.ofMember visit.parent visit.node.kind member) member) state →
        (member'.docs =
            (repairMember resolve ctx visit member state).inserted ctx.text ++
              (repairMember resolve ctx visit member state).remaining ctx.text member.docs ∨
          member'.docs =
            (repairMember resolve ctx visit member state).remaining ctx.text member.docs ++
              (repairMember resolve ctx visit member state).inserted ctx.text) →
        returned (checkMember resolve' ctx' visit' member') state' = [] := by
  have hresult : repairMember resolve ctx visit member state = applyEdits ctx.text
      (repairs ctx.text (Category.ofMember visit.parent visit.node.kind member)
        (returned (baseOf resolve visit.parent
          (Category.ofMember visit.parent visit.node.kind member) member) state).isSome
        visit.node.span.start (TagScan.intended member.docs)) := by
    rw [repairMember, returned_checkMember, fixesOf_of_map_fix (fix_diagnosticsOf ..)]
  obtain ⟨hskipped, happlied⟩ := h.applyEdits_repairs
    (Category.ofMember visit.parent visit.node.kind member)
    (returned (baseOf resolve visit.parent
      (Category.ofMember visit.parent visit.node.kind member) member) state).isSome
  have hsuits := suits_repaired h (applyEdits_spliced ..) happlied
  rw [← hresult] at hskipped hsuits
  refine ⟨hskipped, ?_⟩
  intro resolve' ctx' visit' member' state' hcategory hbase hdocs
  rw [returned_checkMember, hbase, hcategory]
  apply diagnosticsOf_of_suits
  rcases hdocs with hdocs | hdocs
  · rw [hdocs]
    exact hsuits.1
  · rw [hdocs]
    exact hsuits.2

def layeredText : Text :=
  "/** @Overide fast */ /** @override */\n/** @param a @overrides b */ f() {}".toList

def layeredMember : Member where
  name := some ⟨"f", ⟨67, 68, by decide⟩, false⟩
  modifiers := []
  docs := [(0, 20), (21, 37), (38, 66)].map fun (start, stop) =>
    (ofText (Text.slice layeredText start stop) start).value

def layeredVisit : Visit where
  parent := .mk .classDeclaration ⟨0, 73, by decide⟩
    (.classLike ⟨some "A", some [⟨.extending, [⟨"B", .empty 0, "layered.ts"⟩]⟩], []⟩) []
  node := .mk .method ⟨67, 73, by decide⟩ (.member layeredMember) []

private theorem laidOut_layered : LaidOut layeredText 67 layeredMember.docs where
  isSlice := by decide +kernel
  opened := by decide +kernel
  ordered := by decide +kernel
  before := by decide +kernel
  within := by decide +kernel

theorem repairMember_converges_layered :
    LaidOut layeredText 67 layeredMember.docs ∧
      returned (checkMember (fun _ => pure (.found ⟨"B", ["f"]⟩))
        ⟨"layered.ts", layeredText, .error⟩ layeredVisit
        { layeredMember with
          docs :=
            (repairMember (fun _ => pure (.found ⟨"B", ["f"]⟩))
              ⟨"layered.ts", layeredText, .error⟩ layeredVisit layeredMember ()).inserted
                layeredText ++
            (repairMember (fun _ => pure (.found ⟨"B", ["f"]⟩))
              ⟨"layered.ts", layeredText, .error⟩ layeredVisit layeredMember ()).remaining
                layeredText layeredMember.docs }) () = [] :=
  ⟨laidOut_layered,
    (repairMember_converges _ ⟨"layered.ts", layeredText, .error⟩ layeredVisit layeredMember ()
      laidOut_layered).2 _ _ layeredVisit _ () rfl rfl (.inl rfl)⟩

end Rule
end OverrideLint
