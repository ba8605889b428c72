import Mathlib.Data.List.Pairwise
import Mathlib.Data.List.Permutation
import OverrideLint.Proofs.Edit.Progress
import OverrideLint.Proofs.Edit.Relocate

/-! What becomes of subsumed edits. Each lies in a deletion that no other swallows. Unless an
applied edit runs over the end of that deletion, the deletion is applied and leaves nothing of
its span; otherwise it is skipped, and what lies in it is neither made nor removed. -/
namespace OverrideLint

theorem Span.overlaps_eq_true {a b : Span} :
    a.overlaps b = true ↔ a.start < b.stop ∧ b.start < a.stop := by
  simp only [overlaps, Bool.and_eq_true, decide_eq_true_eq]

namespace Edit

structure CoveredBy (edit deletion : Edit) : Prop where
  isDeletion : deletion.isDeletion = true
  contains : deletion.span.contains edit.span = true

/-- A deletion among the edits that covers one of them and that no other swallows. -/
structure Outermost (edits : List Edit) (edit deletion : Edit) : Prop where
  mem : deletion ∈ edits
  covers : edit.CoveredBy deletion
  free : ∀ wider ∈ edits, ¬ deletion.SwallowedBy wider

def RunsOver (edit deletion : Edit) : Prop :=
  deletion.span.start ≤ edit.span.start ∧ edit.span.start < deletion.span.stop ∧
    deletion.span.stop < edit.span.stop

instance (edit deletion : Edit) : Decidable (edit.CoveredBy deletion) :=
  decidable_of_iff (deletion.isDeletion = true ∧ deletion.span.contains edit.span = true)
    ⟨fun h => ⟨h.1, h.2⟩, fun h => ⟨h.isDeletion, h.contains⟩⟩

instance (edit deletion : Edit) : Decidable (edit.RunsOver deletion) :=
  inferInstanceAs (Decidable (_ ∧ _ ∧ _))

section Outermost

variable {edits : List Edit} {edit deletion other : Edit}

theorem SwallowedBy.exists_outermost {length : Nat}
    (hin : ∀ edit ∈ edits, edit.span.stop ≤ length) (hmem : deletion ∈ edits)
    (h : edit.SwallowedBy deletion) : ∃ kept, Outermost edits edit kept := by
  obtain ⟨kept, hkept, hdeletion, hcontains, hfree⟩ :=
    exists_deletion_not_swallowed hin hmem h.isDeletion
  exact ⟨kept, hkept, ⟨hdeletion, Span.contains_trans hcontains h.contains⟩, hfree⟩

theorem Outermost.start_lt_stop (h : Outermost edits edit deletion) (hmem : other ∈ edits)
    (hswallowed : edit.SwallowedBy other) : deletion.span.start < deletion.span.stop := by
  have hcovers := Span.contains_eq_true.1 h.covers.contains
  have hcontains := Span.contains_eq_true.1 hswallowed.contains
  have hle := edit.span.start_le_stop
  apply Nat.lt_of_not_le
  intro hempty
  have hwidth : edit.span.width = 0 := by
    unfold Span.width
    omega
  have hinside := hswallowed.inside hwidth
  have hstart : deletion.span.start = edit.span.start := by omega
  refine h.free other hmem ⟨hswallowed.isDeletion, ?_, ?_, ?_⟩
  · rintro rfl
    exact hinside.1 hstart.symm
  · rw [Span.contains_eq_true]
    omega
  · intro _
    rwa [hstart]

theorem runsOver_of_conflicts (hdeletion : deletion.isDeletion = true)
    (hwide : deletion.span.start < deletion.span.stop) (hne : deletion ≠ other)
    (hle : deletion.span.le other.span = true) (hconflict : deletion.conflicts other = true)
    (hfree : ¬ other.SwallowedBy deletion) : other.RunsOver deletion := by
  have hoverlaps : deletion.span.start < other.span.stop ∧
      other.span.start < deletion.span.stop := by
    rw [conflicts, Bool.or_eq_true, Span.overlaps_eq_true, beq_iff_eq] at hconflict
    rcases hconflict with hoverlaps | hspan
    · exact hoverlaps
    · rw [← hspan]
      exact ⟨hwide, hwide⟩
  simp only [Span.le, Bool.or_eq_true, Bool.and_eq_true, decide_eq_true_eq, beq_iff_eq] at hle
  refine ⟨by omega, hoverlaps.2, Nat.lt_of_not_le fun hwithin => ?_⟩
  refine hfree ⟨hdeletion, hne, ?_, ?_⟩
  · rw [Span.contains_eq_true]
    omega
  · unfold Span.width
    omega

theorem RunsOver.conflicts (h : other.RunsOver deletion) : deletion.conflicts other = true := by
  have hoverlaps : deletion.span.overlaps other.span = true := by
    unfold RunsOver at h
    rw [Span.overlaps_eq_true]
    omega
  rw [Edit.conflicts, hoverlaps, Bool.true_or]

theorem RunsOver.ne (h : other.RunsOver deletion) : deletion ≠ other := by
  rintro rfl
  exact Nat.lt_irrefl _ h.2.2

end Outermost

section Spliced

variable {edits : List Edit} {edit : Edit} {source : Text}

theorem LiesBefore.conflicts_eq_false {a b : Edit} (h : a.LiesBefore b) : b.conflicts a = false :=
  Edit.conflicts_eq_false.2 ⟨h.not_overlaps, h.2.symm⟩

theorem Descending.conflicts_eq_false (h : Descending edits) {a b : Edit} (ha : a ∈ edits)
    (hb : b ∈ edits) (hne : a ≠ b) : a.conflicts b = false := by
  have hsymm : Std.Symm fun a b : Edit => a.conflicts b = false :=
    ⟨fun a b h => (conflicts_comm b a).trans h⟩
  exact (h.imp LiesBefore.conflicts_eq_false).forall ha hb hne

theorem Descending.stop_le_start (h : Descending edits) (hmem : edit ∈ edits) {other : Edit}
    (hother : other ∈ edits) (hbehind : edit.span.start < other.span.start) :
    edit.span.stop ≤ other.span.start := by
  have hne : edit ≠ other := by
    rintro rfl
    exact Nat.lt_irrefl _ hbehind
  have hapart := (Edit.conflicts_eq_false.1 (h.conflicts_eq_false hmem hother hne)).1
  have hle := other.span.start_le_stop
  rw [Span.overlaps_eq_false] at hapart
  omega

theorem splice_around (hdescending : Descending edits) (hmem : edit ∈ edits)
    (hwide : edit.span.start < edit.span.stop) (hin : edit.span.stop ≤ source.length) :
    splice edits source = spliceFrom edits 0 (source.take edit.span.start) ++
      spliceFrom edits edit.span.stop (source.drop edit.span.stop) := by
  obtain ⟨before, inside, after, rfl, hstart, hstop⟩ :=
    Text.exists_parts source edit.span.start_le_stop hin
  have hlength : (before ++ inside).length = edit.span.stop := by
    rw [List.length_append, hstart, hstop]
  rw [List.drop_left' hlength, List.append_assoc, List.take_left' hstart]
  cases inside with
  | nil =>
    rw [List.length_nil] at hstop
    omega
  | cons c inside =>
    rw [List.length_cons] at hstop
    have hcovers : edits.any (·.covers edit.span.start) = true := by
      apply List.any_eq_true.2 ⟨edit, hmem, ?_⟩
      simp only [covers, Bool.and_eq_true, decide_eq_true_eq]
      omega
    have hnothing : splicePart edits (edit.span.start + 1) inside = [] :=
      splicePart_covered hmem _ _ (Nat.lt_succ_self _) (by omega) fun other hother hbehind =>
        hdescending.stop_le_start hmem hother hbehind
    have hfront : spliceFrom edits 0 before =
        splicePart edits 0 before ++ writtenAt edits edit.span.start := by
      have := spliceFrom_part edits 0 before []
      rwa [List.append_nil, Nat.zero_add, hstart] at this
    have hbehind : edit.span.start + 1 + inside.length = edit.span.stop := by omega
    calc splice edits (before ++ (c :: inside ++ after))
      _ = splicePart edits 0 before ++
            spliceFrom edits edit.span.start (c :: inside ++ after) := by
          rw [splice, spliceFrom_part, Nat.zero_add, hstart]
      _ = splicePart edits 0 before ++ (writtenAt edits edit.span.start ++
            spliceFrom edits (edit.span.start + 1) (inside ++ after)) := by
          rw [List.cons_append, spliceFrom, hcovers, if_pos rfl, List.append_nil]
      _ = spliceFrom edits 0 before ++ spliceFrom edits edit.span.stop after := by
          rw [spliceFrom_part, hnothing, hbehind, List.nil_append, hfront, List.append_assoc]

end Spliced

end Edit

namespace FixResult

variable {length : Nat} {result : FixResult} {edits : List Edit} {edit : Edit}

private theorem skipped_sublist_step (length : Nat) (result : FixResult) (edit : Edit) :
    result.skipped.Sublist (result.step length edit).skipped := by
  unfold step
  split
  · exact List.sublist_append_left ..
  · split
    · exact List.sublist_append_left ..
    · exact List.Sublist.refl _

private theorem skipped_sublist_foldl (length : Nat) (result : FixResult) (edits : List Edit) :
    result.skipped.Sublist (edits.foldl (step length) result).skipped := by
  induction edits generalizing result with
  | nil => exact List.Sublist.refl _
  | cons edit edits ih => exact (skipped_sublist_step length result edit).trans (ih _)

private theorem applied_or_skipped_step (hin : edit.span.stop ≤ length) :
    edit ∈ (result.step length edit).applied ∨
      (edit, .overlapping) ∈ (result.step length edit).skipped ∧
        ∃ other ∈ result.applied, edit.conflicts other = true := by
  rw [step, if_neg (Nat.not_lt.2 hin)]
  split
  · rename_i hconflict
    exact .inr ⟨List.mem_append_right _ (List.mem_singleton.2 rfl), List.any_eq_true.1 hconflict⟩
  · exact .inl (List.mem_append_right _ (List.mem_singleton.2 rfl))

theorem applied_or_skipped_foldl (hmem : edit ∈ edits) (hin : edit.span.stop ≤ length)
    (hsorted : edits.Pairwise fun a b => b.span.le a.span = true)
    (hle : ∀ edit ∈ edits, ∀ other ∈ result.applied, edit.span.le other.span = true) :
    edit ∈ (edits.foldl (step length) result).applied ∨
      (edit, .overlapping) ∈ (edits.foldl (step length) result).skipped ∧
        ∃ other ∈ (edits.foldl (step length) result).applied,
          edit.conflicts other = true ∧ edit.span.le other.span = true := by
  induction edits generalizing result with
  | nil => cases hmem
  | cons first edits ih =>
    obtain ⟨hfirst, hrest⟩ := List.pairwise_cons.1 hsorted
    rcases List.mem_cons.1 hmem with rfl | hlater
    · have hkept := (applied_sublist_foldl length (result.step length edit) edits).subset
      rcases applied_or_skipped_step hin with happlied | ⟨hskipped, other, hother, hconflict⟩
      · exact .inl (hkept happlied)
      · refine .inr ⟨(skipped_sublist_foldl length _ edits).subset hskipped, other, ?_, hconflict,
          hle edit List.mem_cons_self other hother⟩
        exact hkept ((applied_sublist_step length result edit).subset hother)
    · apply ih hlater hrest
      intro later hlater other hother
      rcases mem_applied_step hother with hold | rfl
      · exact hle later (List.mem_cons_of_mem _ hlater) other hold
      · exact hfirst later hlater

end FixResult

section Applied

variable {source : Text} {edits : List Edit} {edit deletion other : Edit}

private theorem not_swallowedBy_of_mem_applied (h : edit ∈ (applyEdits source edits).applied)
    (hmem : deletion ∈ edits) : ¬ edit.SwallowedBy deletion := by
  rcases FixResult.mem_applied_foldl h with hnone | hkept
  · cases hnone
  · exact ((mem_kept_iff _ _).1 hkept).2 deletion hmem

private theorem applied_or_skipped (hin : edit.span.stop ≤ source.length) (hmem : edit ∈ edits)
    (hfree : ∀ deletion ∈ edits, ¬ edit.SwallowedBy deletion) :
    edit ∈ (applyEdits source edits).applied ∨
      (edit, .overlapping) ∈ (applyEdits source edits).skipped ∧
        ∃ other ∈ (applyEdits source edits).applied,
          edit.conflicts other = true ∧ edit.span.le other.span = true := by
  apply FixResult.applied_or_skipped_foldl ((mem_kept_iff _ _).2 ⟨hmem, hfree⟩) hin
    (pairwise_backToFront _)
  intro later _ other hother
  cases hother

/-- An outermost deletion is applied unless an applied edit runs over its end. -/
theorem outermost_applied_or_skipped (hin : ∀ edit ∈ edits, edit.span.stop ≤ source.length)
    (h : Edit.Outermost edits edit deletion) (hwide : deletion.span.start < deletion.span.stop) :
    (deletion ∈ (applyEdits source edits).applied ∧
        ∀ other ∈ (applyEdits source edits).applied, ¬ other.RunsOver deletion) ∨
      deletion ∉ (applyEdits source edits).applied ∧
        (deletion, .overlapping) ∈ (applyEdits source edits).skipped ∧
          ∃ other ∈ (applyEdits source edits).applied, other.RunsOver deletion := by
  by_cases happlied : deletion ∈ (applyEdits source edits).applied
  · refine .inl ⟨happlied, fun other hother hover => ?_⟩
    have hapart := (applyEdits_spliced source edits).descending.conflicts_eq_false happlied hother
      hover.ne
    exact Bool.false_ne_true (hapart.symm.trans hover.conflicts)
  · obtain ⟨hskipped, other, hother, hconflict, hle⟩ :=
      (applied_or_skipped (hin deletion h.mem) h.mem h.free).resolve_left happlied
    have hne : deletion ≠ other := fun heq => happlied (heq ▸ hother)
    refine .inr ⟨happlied, hskipped, other, hother, ?_⟩
    exact Edit.runsOver_of_conflicts h.covers.isDeletion hwide hne hle hconflict
      (not_swallowedBy_of_mem_applied hother h.mem)

/-- Among edits within the text, a subsumed edit lies in an outermost deletion. Each such
deletion is either applied, so that nothing of its span is left, or skipped for an applied edit
that runs over its end. An applied deletion covers the edit exactly if there is an outermost
one whose end no applied edit runs over. -/
theorem subsumed_covered_iff (hin : ∀ edit ∈ edits, edit.span.stop ≤ source.length)
    (h : edit ∈ (applyEdits source edits).subsumed) :
    (∃ deletion, Edit.Outermost edits edit deletion) ∧
      (∀ deletion, Edit.Outermost edits edit deletion →
        deletion ∈ (applyEdits source edits).applied ∧
            (applyEdits source edits).text =
              Edit.spliceFrom (applyEdits source edits).applied 0
                  (source.take deletion.span.start) ++
                Edit.spliceFrom (applyEdits source edits).applied deletion.span.stop
                  (source.drop deletion.span.stop) ∨
          deletion ∉ (applyEdits source edits).applied ∧
            (deletion, .overlapping) ∈ (applyEdits source edits).skipped ∧
              ∃ other ∈ (applyEdits source edits).applied, other.RunsOver deletion) ∧
      ((∃ deletion ∈ (applyEdits source edits).applied, edit.CoveredBy deletion) ↔
        ∃ deletion, Edit.Outermost edits edit deletion ∧
          ∀ other ∈ (applyEdits source edits).applied, ¬ other.RunsOver deletion) := by
  obtain ⟨-, swallower, hswallower, hswallowed⟩ := mem_subsumed_iff.1 h
  have hspliced := applyEdits_spliced source edits
  have hfate (deletion : Edit) (houter : Edit.Outermost edits edit deletion) :=
    outermost_applied_or_skipped hin houter (houter.start_lt_stop hswallower hswallowed)
  refine ⟨hswallowed.exists_outermost hin hswallower, ?_, ?_, ?_⟩
  · intro deletion houter
    rcases hfate deletion houter with ⟨happlied, -⟩ | hskipped
    · refine .inl ⟨happlied, ?_⟩
      rw [hspliced.text_eq]
      exact Edit.splice_around hspliced.descending happlied
        (houter.start_lt_stop hswallower hswallowed) (hspliced.within deletion happlied)
    · exact .inr hskipped
  · rintro ⟨deletion, happlied, hcovered⟩
    -- What is swallowed is never made in turn, so an applied deletion is an outermost one.
    have houter : Edit.Outermost edits edit deletion :=
      ⟨mem_of_mem_applied happlied, hcovered, fun wider hwider =>
        not_swallowedBy_of_mem_applied happlied hwider⟩
    rcases hfate deletion houter with ⟨-, hclear⟩ | ⟨hnot, -⟩
    · exact ⟨deletion, houter, hclear⟩
    · exact absurd happlied hnot
  · rintro ⟨deletion, houter, hclear⟩
    rcases hfate deletion houter with ⟨happlied, -⟩ | ⟨-, -, other, hother, hover⟩
    · exact ⟨deletion, happlied, houter.covers⟩
    · exact absurd hover (hclear other hother)

end Applied

def nestedEdits : List Edit :=
  [.replace ⟨3, 4, by decide⟩ "x".toList, .delete ⟨2, 5, by decide⟩, .delete ⟨1, 6, by decide⟩,
    .replace ⟨6, 8, by decide⟩ "Z".toList]

theorem subsumed_covered_iff_nested :
    (∀ edit ∈ nestedEdits, edit.span.stop ≤ "abcdefgh".toList.length) ∧
      .replace ⟨3, 4, by decide⟩ "x".toList ∈
        (applyEdits "abcdefgh".toList nestedEdits).subsumed ∧
      ∃ deletion ∈ (applyEdits "abcdefgh".toList nestedEdits).applied,
        (Edit.replace ⟨3, 4, by decide⟩ "x".toList).CoveredBy deletion := by
  have hin : ∀ edit ∈ nestedEdits, edit.span.stop ≤ "abcdefgh".toList.length := by decide
  have hsubsumed : (applyEdits "abcdefgh".toList nestedEdits).subsumed =
      [.replace ⟨3, 4, by decide⟩ "x".toList, .delete ⟨2, 5, by decide⟩] := by cbv
  have happlied : (applyEdits "abcdefgh".toList nestedEdits).applied =
      [.replace ⟨6, 8, by decide⟩ "Z".toList, .delete ⟨1, 6, by decide⟩] := by cbv
  have hmem : .replace ⟨3, 4, by decide⟩ "x".toList ∈
      (applyEdits "abcdefgh".toList nestedEdits).subsumed := by
    rw [hsubsumed]
    exact List.mem_cons_self
  have hfree : (Edit.delete ⟨1, 6, by decide⟩).isSubsumed nestedEdits = false := by decide
  refine ⟨hin, hmem, (subsumed_covered_iff hin hmem).2.2.2 ?_⟩
  refine ⟨.delete ⟨1, 6, by decide⟩, ⟨by decide, ⟨rfl, by decide⟩, ?_⟩, ?_⟩
  · intro wider hwider hswallowed
    exact Bool.false_ne_true (hfree.symm.trans (Edit.isSubsumed_iff.2 ⟨wider, hwider, hswallowed⟩))
  · rw [happlied]
    decide

def straddledEdits : List Edit :=
  [.replace ⟨2, 3, by decide⟩ "y".toList, .delete ⟨1, 4, by decide⟩,
    .replace ⟨3, 5, by decide⟩ "X".toList]

/-- No applied deletion need cover a subsumed edit, whose target then stays in the text. -/
theorem subsumed_without_deletion :
    (∀ edit ∈ straddledEdits, edit.span.stop ≤ "abcdefg".toList.length) ∧
      (applyEdits "abcdefg".toList straddledEdits).text = "abcXfg".toList ∧
      ∃ edit ∈ (applyEdits "abcdefg".toList straddledEdits).subsumed,
        ∀ deletion ∈ (applyEdits "abcdefg".toList straddledEdits).applied,
          ¬ edit.CoveredBy deletion := by
  have hsubsumed : (applyEdits "abcdefg".toList straddledEdits).subsumed =
      [.replace ⟨2, 3, by decide⟩ "y".toList] := by cbv
  have happlied : (applyEdits "abcdefg".toList straddledEdits).applied =
      [.replace ⟨3, 5, by decide⟩ "X".toList] := by cbv
  rw [hsubsumed, happlied]
  exact ⟨by decide, by cbv, _, List.mem_cons_self, by decide⟩

end OverrideLint
