import OverrideLint.Edit.Apply
import OverrideLint.Proofs.Text.Slice

/-! Edits made one after another, from back to front, give the same text as one pass
from front to back over the unedited text that writes every edit in its place. -/
namespace OverrideLint

namespace Span

theorem overlaps_eq_false {a b : Span} :
    a.overlaps b = false ↔ b.stop ≤ a.start ∨ a.stop ≤ b.start := by
  simp only [overlaps, Bool.and_eq_false_iff, decide_eq_false_iff_not, Nat.not_lt]

theorem contains_eq_true {outer inner : Span} :
    outer.contains inner = true ↔ outer.start ≤ inner.start ∧ inner.stop ≤ outer.stop := by
  simp only [contains, Bool.and_eq_true, decide_eq_true_eq]

end Span

namespace Edit

def covers (edit : Edit) (offset : Nat) : Bool :=
  edit.span.start ≤ offset && offset < edit.span.stop

/-- What the edits that start at an offset write there. One that takes no character away
writes before one that does. -/
def writtenAt (edits : List Edit) (offset : Nat) : Text :=
  let starting := edits.filter (·.span.start == offset)
  (starting.filter (·.span.width == 0) ++ starting.filter (·.span.width != 0)).flatMap text

/-- One pass over the text from an offset on: at each offset first what is written there,
then the character itself unless an edit covers it. -/
def spliceFrom (edits : List Edit) (offset : Nat) : Text → Text
  | [] => writtenAt edits offset
  | c :: rest =>
    writtenAt edits offset ++ (if edits.any (·.covers offset) then [] else [c]) ++
      spliceFrom edits (offset + 1) rest

def splice (edits : List Edit) (source : Text) : Text := spliceFrom edits 0 source

/-- One edit lies before another when it ends where the other starts or earlier. Two
edits of the same empty span are in no order. -/
def LiesBefore (a b : Edit) : Prop := a.span.stop ≤ b.span.start ∧ a.span ≠ b.span

def Descending (edits : List Edit) : Prop := edits.Pairwise fun a b => b.LiesBefore a

structure SwallowedBy (edit deletion : Edit) : Prop where
  isDeletion : deletion.isDeletion = true
  ne : deletion ≠ edit
  contains : deletion.span.contains edit.span = true
  inside : edit.span.width = 0 →
    edit.span.start ≠ deletion.span.start ∧ edit.span.start ≠ deletion.span.stop

theorem isSubsumed_iff {edit : Edit} {edits : List Edit} :
    edit.isSubsumed edits = true ↔ ∃ deletion ∈ edits, edit.SwallowedBy deletion := by
  simp only [isSubsumed, List.any_eq_true, Bool.and_eq_true, Bool.not_eq_true',
    Bool.and_eq_false_iff, Bool.or_eq_false_iff, bne_iff_ne, beq_eq_false_iff_ne]
  constructor
  · rintro ⟨deletion, hmem, ⟨⟨hdeletion, hne⟩, hcontains⟩, hinside⟩
    exact ⟨deletion, hmem, hdeletion, hne, hcontains, hinside.resolve_left ∘ not_not_intro⟩
  · rintro ⟨deletion, hmem, hswallowed⟩
    refine ⟨deletion, hmem, ⟨⟨hswallowed.isDeletion, hswallowed.ne⟩, hswallowed.contains⟩, ?_⟩
    by_cases hwidth : edit.span.width = 0
    · exact .inr (hswallowed.inside hwidth)
    · exact .inl hwidth

theorem LiesBefore.not_overlaps {a b : Edit} (h : a.LiesBefore b) :
    b.span.overlaps a.span = false := by
  rw [Span.overlaps_eq_false]
  exact .inl h.1

theorem liesBefore_of_not_conflicts {a b : Edit} (hle : a.span.le b.span = true)
    (hfree : a.conflicts b = false) : a.LiesBefore b := by
  have hb := b.span.start_le_stop
  rw [conflicts, Bool.or_eq_false_iff, Span.overlaps_eq_false, beq_eq_false_iff_ne] at hfree
  simp only [Span.le, Bool.or_eq_true, Bool.and_eq_true, decide_eq_true_eq, beq_iff_eq] at hle
  refine ⟨?_, hfree.2⟩
  omega

theorem writtenAt_eq_nil {edits : List Edit} {offset : Nat}
    (h : ∀ edit ∈ edits, edit.span.start ≠ offset) : writtenAt edits offset = [] := by
  have hnone : edits.filter (·.span.start == offset) = [] := by
    apply List.filter_eq_nil_iff.2
    intro edit hmem
    simpa using h edit hmem
  simp [writtenAt, hnone]

private theorem writtenAt_concat_of_ne {edits : List Edit} {edit : Edit} {offset : Nat}
    (h : edit.span.start ≠ offset) : writtenAt (edits ++ [edit]) offset = writtenAt edits offset := by
  simp [writtenAt, List.filter_append, h]

private theorem any_covers_eq_false {edits : List Edit} {offset : Nat}
    (h : ∀ edit ∈ edits, offset < edit.span.start) : edits.any (·.covers offset) = false := by
  apply List.any_eq_false.2
  intro edit hmem
  have := h edit hmem
  simp only [covers, Bool.and_eq_true, decide_eq_true_eq, not_and]
  omega

private theorem spliceFrom_append (edits : List Edit) (offset : Nat) (before after : Text)
    (h : ∀ edit ∈ edits, offset + before.length ≤ edit.span.start) :
    spliceFrom edits offset (before ++ after) =
      before ++ spliceFrom edits (offset + before.length) after := by
  induction before generalizing offset with
  | nil => rfl
  | cons c before ih =>
    simp only [List.length_cons] at h
    have hlater : ∀ edit ∈ edits, offset < edit.span.start := by
      intro edit hmem
      have := h edit hmem
      omega
    have hrest : ∀ edit ∈ edits, offset + 1 + before.length ≤ edit.span.start := by
      intro edit hmem
      have := h edit hmem
      omega
    rw [List.cons_append, spliceFrom,
      writtenAt_eq_nil fun edit hmem => Nat.ne_of_gt (hlater edit hmem),
      any_covers_eq_false hlater, ih (offset + 1) hrest]
    simp [Nat.add_assoc, Nat.add_comm 1]

theorem splice_nil (source : Text) : splice [] source = source := by
  have h := spliceFrom_append [] 0 source [] (by intro edit hmem; cases hmem)
  simpa [splice, spliceFrom, writtenAt] using h

private theorem spliceFrom_concat_of_lt {edits : List Edit} {edit : Edit} (offset : Nat)
    (source : Text) (hstart : edit.span.start < offset) (hstop : edit.span.stop ≤ offset) :
    spliceFrom (edits ++ [edit]) offset source = spliceFrom edits offset source := by
  have hcovers (i : Nat) (hi : offset ≤ i) : edit.covers i = false := by
    simp only [covers, Bool.and_eq_false_iff, decide_eq_false_iff_not]
    omega
  induction source generalizing offset with
  | nil => exact writtenAt_concat_of_ne (Nat.ne_of_lt hstart)
  | cons c rest ih =>
    simp only [spliceFrom, writtenAt_concat_of_ne (Nat.ne_of_lt hstart), List.any_append,
      List.any_cons, List.any_nil, hcovers offset (Nat.le_refl _), Bool.or_false]
    rw [ih (offset + 1) (by omega) (by omega) fun i hi => hcovers i (by omega)]

private theorem spliceFrom_covered {edits : List Edit} {edit : Edit} (offset : Nat)
    (covered after : Text) (hlater : ∀ other ∈ edits, edit.span.stop ≤ other.span.start)
    (hstart : edit.span.start < offset) (hstop : offset + covered.length = edit.span.stop) :
    spliceFrom (edits ++ [edit]) offset (covered ++ after) =
      spliceFrom (edits ++ [edit]) edit.span.stop after := by
  induction covered generalizing offset with
  | nil => rw [← hstop]; rfl
  | cons c covered ih =>
    simp only [List.length_cons] at hstop
    have hwritten : writtenAt (edits ++ [edit]) offset = [] := by
      rw [writtenAt_concat_of_ne (Nat.ne_of_lt hstart)]
      apply writtenAt_eq_nil
      intro other hmem
      have := hlater other hmem
      omega
    have hcovers : edit.covers offset = true := by
      simp only [covers, Bool.and_eq_true, decide_eq_true_eq]
      omega
    simp only [List.cons_append, spliceFrom, hwritten, List.any_append, List.any_cons, hcovers,
      Bool.true_or, Bool.or_true, if_true, List.nil_append]
    exact ih (offset + 1) (by omega) (by omega)

private theorem spliceFrom_start {edits : List Edit} {edit : Edit} (covered after : Text)
    (hbefore : ∀ other ∈ edits, edit.LiesBefore other)
    (hlength : edit.span.start + covered.length = edit.span.stop) :
    spliceFrom (edits ++ [edit]) edit.span.start (covered ++ after) =
      edit.text ++ spliceFrom edits edit.span.stop after := by
  cases covered with
  | nil =>
    simp only [List.length_nil, Nat.add_zero] at hlength
    have hwidth : edit.span.width = 0 := by simp [Span.width, hlength]
    have hfirst : writtenAt (edits ++ [edit]) edit.span.start =
        edit.text ++ writtenAt edits edit.span.start := by
      have hnone : (edits.filter (·.span.start == edit.span.start)).filter (·.span.width == 0) =
          [] := by
        simp only [List.filter_filter]
        apply List.filter_eq_nil_iff.2
        intro other hmem
        have hne := (hbefore other hmem).2
        have hle := other.span.start_le_stop
        simp only [Bool.and_eq_true, beq_iff_eq, Span.width]
        intro h
        exact hne (Span.ext (by omega) (by omega))
      simp only [writtenAt, List.filter_append, List.filter_cons, List.filter_nil, beq_self_eq_true,
        if_true, hwidth, hnone]
      simp
    have hcovers : edit.covers edit.span.start = false := by
      simp [covers, hlength]
    rw [← hlength]
    cases after with
    | nil => simpa [spliceFrom] using hfirst
    | cons c rest =>
      simp only [List.nil_append, spliceFrom, hfirst, List.any_append, List.any_cons, List.any_nil,
        hcovers, Bool.or_false, List.append_assoc]
      rw [spliceFrom_concat_of_lt _ _ (Nat.lt_succ_self _) (by omega)]
  | cons c covered =>
    simp only [List.length_cons] at hlength
    have hlater : ∀ other ∈ edits, edit.span.stop ≤ other.span.start :=
      fun other hmem => (hbefore other hmem).1
    have hwritten : writtenAt (edits ++ [edit]) edit.span.start = edit.text := by
      have hnone : edits.filter (·.span.start == edit.span.start) = [] := by
        apply List.filter_eq_nil_iff.2
        intro other hmem
        have := hlater other hmem
        simp only [beq_iff_eq]
        omega
      have hwidth : edit.span.width ≠ 0 := by unfold Span.width; omega
      simp [writtenAt, hnone, hwidth]
    have hcovers : edit.covers edit.span.start = true := by
      simp only [covers, Bool.and_eq_true, decide_eq_true_eq]
      omega
    simp only [List.cons_append, spliceFrom, hwritten, List.any_append, List.any_cons, hcovers,
      Bool.true_or, Bool.or_true, if_true, List.append_nil]
    rw [spliceFrom_covered _ _ _ hlater (Nat.lt_succ_self _) (by omega),
      spliceFrom_concat_of_lt _ _ (by omega) (Nat.le_refl _)]

/-- Making one more edit, before all others, in the edited text is the same as writing it
in the same pass. -/
theorem splice_concat {edits : List Edit} {edit : Edit} {source : Text}
    (hbefore : ∀ other ∈ edits, edit.LiesBefore other) (hin : edit.span.stop ≤ source.length) :
    splice (edits ++ [edit]) source = edit.apply (splice edits source) := by
  obtain ⟨before, covered, after, rfl, hstart, hstop⟩ :=
    Text.exists_parts source edit.span.start_le_stop hin
  have hlater : ∀ other ∈ edits, 0 + (before ++ covered).length ≤ other.span.start := by
    intro other hmem
    have := (hbefore other hmem).1
    rw [List.length_append]
    omega
  have hall : ∀ other ∈ edits ++ [edit], 0 + before.length ≤ other.span.start := by
    intro other hmem
    rcases List.mem_append.1 hmem with h | h
    · have := hlater other h
      rw [List.length_append] at this
      omega
    · rw [List.mem_singleton.1 h]
      omega
  have hcut : 0 + (before ++ covered).length = edit.span.stop := by
    rw [List.length_append]
    omega
  have hpass : splice (edits ++ [edit]) (before ++ covered ++ after) =
      before ++ (edit.text ++ spliceFrom edits edit.span.stop after) := by
    rw [splice, List.append_assoc, spliceFrom_append _ 0 before _ hall, Nat.zero_add, hstart,
      spliceFrom_start covered after hbefore hstop]
  have hearlier : splice edits (before ++ covered ++ after) =
      before ++ covered ++ spliceFrom edits edit.span.stop after := by
    rw [splice, spliceFrom_append _ 0 (before ++ covered) after hlater, hcut]
  rw [hpass, hearlier, apply, List.append_assoc before covered, List.take_left' hstart,
    ← List.append_assoc before covered, List.drop_left' (by omega), List.append_assoc]

end Edit

namespace FixResult

/-- What holds of a result while edits are applied from back to front. -/
structure Spliced (source : Text) (result : FixResult) : Prop where
  text_eq : result.text = Edit.splice result.applied source
  descending : Edit.Descending result.applied
  within : ∀ edit ∈ result.applied, edit.span.stop ≤ source.length

theorem Spliced.step {source : Text} {result : FixResult} {edit : Edit}
    (h : result.Spliced source) (hle : ∀ other ∈ result.applied, edit.span.le other.span = true) :
    (result.step source.length edit).Spliced source := by
  unfold FixResult.step
  split
  · exact ⟨h.text_eq, h.descending, h.within⟩
  · rename_i hin
    split
    · exact ⟨h.text_eq, h.descending, h.within⟩
    · rename_i hfree
      have hbefore : ∀ other ∈ result.applied, edit.LiesBefore other := by
        intro other hmem
        apply Edit.liesBefore_of_not_conflicts (hle other hmem)
        exact Bool.eq_false_iff.2 fun hconflict => hfree (List.any_eq_true.2 ⟨other, hmem, hconflict⟩)
      refine ⟨?_, ?_, ?_⟩
      · rw [Edit.splice_concat hbefore (Nat.le_of_not_lt hin), ← h.text_eq]
      · apply List.pairwise_append.2
        refine ⟨h.descending, List.pairwise_singleton .., ?_⟩
        intro other hmem last hlast
        rw [List.mem_singleton.1 hlast]
        exact hbefore other hmem
      · intro other hmem
        rcases List.mem_append.1 hmem with hold | hnew
        · exact h.within other hold
        · rw [List.mem_singleton.1 hnew]
          exact Nat.le_of_not_lt hin

theorem mem_applied_step {length : Nat} {result : FixResult} {edit other : Edit}
    (h : other ∈ (result.step length edit).applied) : other ∈ result.applied ∨ other = edit := by
  unfold FixResult.step at h
  split at h
  · exact .inl h
  · split at h
    · exact .inl h
    · simpa using h

theorem Spliced.foldl {source : Text} {result : FixResult} (edits : List Edit)
    (h : result.Spliced source) (hsorted : edits.Pairwise fun a b => b.span.le a.span = true)
    (hle : ∀ edit ∈ edits, ∀ other ∈ result.applied, edit.span.le other.span = true) :
    (edits.foldl (FixResult.step source.length) result).Spliced source := by
  induction edits generalizing result with
  | nil => exact h
  | cons edit edits ih =>
    obtain ⟨hfirst, hrest⟩ := List.pairwise_cons.1 hsorted
    apply ih (h.step (hle edit List.mem_cons_self)) hrest
    intro later hlater other hmem
    rcases mem_applied_step hmem with hold | rfl
    · exact hle later (List.mem_cons_of_mem _ hlater) other hold
    · exact hfirst later hlater

end FixResult

theorem Span.le_trans {a b c : Span} (hab : a.le b = true) (hbc : b.le c = true) :
    a.le c = true := by
  simp only [Span.le, Bool.or_eq_true, Bool.and_eq_true, decide_eq_true_eq, beq_iff_eq] at *
  omega

theorem Span.le_total (a b : Span) : (a.le b || b.le a) = true := by
  simp only [Span.le, Bool.or_eq_true, Bool.and_eq_true, decide_eq_true_eq, beq_iff_eq]
  omega

theorem pairwise_backToFront (edits : List Edit) :
    (backToFront edits).Pairwise fun a b => b.span.le a.span = true := by
  apply List.pairwise_mergeSort
  · intro a b c hab hbc
    exact Span.le_trans hbc hab
  · intro a b
    exact Span.le_total b.span a.span

theorem applyEdits_spliced (source : Text) (edits : List Edit) :
    (applyEdits source edits).Spliced source := by
  apply FixResult.Spliced.foldl _ _ (pairwise_backToFront _)
  · intro edit _ other hmem
    cases hmem
  · refine ⟨(Edit.splice_nil source).symm, List.Pairwise.nil, ?_⟩
    intro edit hmem
    cases hmem

namespace FixResult

variable {length : Nat} {result : FixResult} {edits : List Edit} {edit other : Edit}

theorem mem_applied_foldl (h : other ∈ (edits.foldl (step length) result).applied) :
    other ∈ result.applied ∨ other ∈ edits := by
  induction edits generalizing result with
  | nil => exact .inl h
  | cons edit edits ih =>
    rcases ih h with hstep | hrest
    · rcases mem_applied_step hstep with hold | rfl
      · exact .inl hold
      · exact .inr List.mem_cons_self
    · exact .inr (List.mem_cons_of_mem _ hrest)

theorem applied_sublist_step (length : Nat) (result : FixResult) (edit : Edit) :
    result.applied.Sublist (result.step length edit).applied := by
  unfold step
  split
  · exact List.Sublist.refl _
  · split
    · exact List.Sublist.refl _
    · exact List.sublist_append_left ..

theorem applied_sublist_foldl (length : Nat) (result : FixResult) (edits : List Edit) :
    result.applied.Sublist (edits.foldl (step length) result).applied := by
  induction edits generalizing result with
  | nil => exact List.Sublist.refl _
  | cons edit edits ih => exact (applied_sublist_step length result edit).trans (ih _)

@[simp]
theorem subsumed_foldl : (edits.foldl (step length) result).subsumed = result.subsumed := by
  induction edits generalizing result with
  | nil => rfl
  | cons edit edits ih =>
    rw [List.foldl_cons, ih]
    unfold step
    split
    · rfl
    · split <;> rfl

private theorem applied_step_or (length : Nat) (result : FixResult) (edit : Edit) :
    edit ∈ (result.step length edit).applied ∨ length < edit.span.stop ∨
      ∃ other ∈ (result.step length edit).applied, edit.conflicts other = true := by
  unfold step
  split
  · rename_i hout
    exact .inr (.inl hout)
  · split
    · rename_i hconflict
      exact .inr (.inr (List.any_eq_true.1 hconflict))
    · exact .inl (List.mem_append_right _ (List.mem_singleton.2 rfl))

theorem applied_foldl_or (h : edit ∈ edits) :
    edit ∈ (edits.foldl (step length) result).applied ∨ length < edit.span.stop ∨
      ∃ other ∈ (edits.foldl (step length) result).applied, edit.conflicts other = true := by
  induction edits generalizing result with
  | nil => cases h
  | cons first edits ih =>
    rcases List.mem_cons.1 h with rfl | hrest
    · have hkept := (applied_sublist_foldl length (result.step length edit) edits).subset
      rcases applied_step_or length result edit with happlied | hout | ⟨other, hmem, hconflict⟩
      · exact .inl (hkept happlied)
      · exact .inr (.inl hout)
      · exact .inr (.inr ⟨other, hkept hmem, hconflict⟩)
    · exact ih hrest

end FixResult

theorem mem_of_mem_applied {source : Text} {edits : List Edit} {edit : Edit}
    (h : edit ∈ (applyEdits source edits).applied) : edit ∈ edits := by
  unfold applyEdits at h
  rcases FixResult.mem_applied_foldl h with hnone | hkept
  · cases hnone
  · exact List.mem_eraseDups.1 (List.mem_filter.1 (List.mem_mergeSort.1 hkept)).1

theorem mem_subsumed_iff {source : Text} {edits : List Edit} {edit : Edit} :
    edit ∈ (applyEdits source edits).subsumed ↔
      edit ∈ edits ∧ ∃ deletion ∈ edits, edit.SwallowedBy deletion := by
  unfold applyEdits
  rw [FixResult.subsumed_foldl, List.mem_filter, Edit.isSubsumed_iff, List.mem_eraseDups]
  simp only [List.mem_eraseDups]

theorem mem_kept_iff (edits : List Edit) (edit : Edit) :
    edit ∈ backToFront (edits.eraseDups.filter fun e => !e.isSubsumed edits.eraseDups) ↔
      edit ∈ edits ∧ ∀ deletion ∈ edits, ¬ edit.SwallowedBy deletion := by
  rw [backToFront, List.mem_mergeSort, List.mem_filter, List.mem_eraseDups, Bool.not_eq_true',
    Bool.eq_false_iff, Ne, Edit.isSubsumed_iff]
  simp only [List.mem_eraseDups, not_exists, not_and]

/-- Applying edits is splicing those that are applied: they do not overlap, they end within
the text, and the result is one pass over the unedited text. The subsumed ones are those that lie in
another requested deletion. Any other edit ends past the text or conflicts with an applied one. -/
theorem applyEdits_eq_splice (source : Text) (edits : List Edit) :
    (applyEdits source edits).applied.Pairwise (fun a b => a.span.overlaps b.span = false) ∧
      (∀ edit ∈ (applyEdits source edits).applied,
        edit ∈ edits ∧ edit.span.stop ≤ source.length) ∧
      (applyEdits source edits).text = Edit.splice (applyEdits source edits).applied source ∧
      (∀ edit, edit ∈ (applyEdits source edits).subsumed ↔
        edit ∈ edits ∧ ∃ deletion ∈ edits, edit.SwallowedBy deletion) ∧
      ∀ edit ∈ edits, edit ∈ (applyEdits source edits).applied ∨
        edit ∈ (applyEdits source edits).subsumed ∨ source.length < edit.span.stop ∨
        ∃ other ∈ (applyEdits source edits).applied, edit.conflicts other = true := by
  have hspliced := applyEdits_spliced source edits
  refine ⟨hspliced.descending.imp Edit.LiesBefore.not_overlaps, ?_, hspliced.text_eq,
    fun _ => mem_subsumed_iff, ?_⟩
  · intro edit hmem
    exact ⟨mem_of_mem_applied hmem, hspliced.within edit hmem⟩
  · intro edit hmem
    by_cases hswallowed : ∃ deletion ∈ edits, edit.SwallowedBy deletion
    · exact .inr (.inl (mem_subsumed_iff.2 ⟨hmem, hswallowed⟩))
    · have hkept := (mem_kept_iff edits edit).2 ⟨hmem, by simpa using hswallowed⟩
      rcases FixResult.applied_foldl_or hkept with happlied | hrest
      · exact .inl happlied
      · exact .inr (.inr hrest)

end OverrideLint
