import Mathlib.Data.List.Permutation
import OverrideLint.Proofs.Edit.Compatible

/-! Edits listed in another order, or more than once. Where no two different edits share a
span, sorting leaves the edits that are made in turn one order only, so the outcome hangs on
which edits are listed and on nothing else. -/
namespace OverrideLint

theorem Span.le_antisymm {a b : Span} (hab : a.le b = true) (hba : b.le a = true) : a = b := by
  simp only [Span.le, Bool.or_eq_true, Bool.and_eq_true, decide_eq_true_eq, beq_iff_eq] at hab hba
  exact Span.ext (by omega) (by omega)

namespace Edit

def DistinctSpans (edits : List Edit) : Prop :=
  ∀ a ∈ edits, ∀ b ∈ edits, a.span = b.span → a = b

instance (edits : List Edit) : Decidable (DistinctSpans edits) :=
  inferInstanceAs (Decidable (∀ a ∈ edits, ∀ b ∈ edits, a.span = b.span → a = b))

theorem isSubsumed_congr {edits others : List Edit} (h : ∀ edit, edit ∈ edits ↔ edit ∈ others)
    (edit : Edit) : edit.isSubsumed edits = edit.isSubsumed others := by
  rw [Bool.eq_iff_iff, isSubsumed_iff, isSubsumed_iff]
  simp only [h]

end Edit

section Sorting

variable {edits others : List Edit}

private theorem perm_eraseDups (h : ∀ edit, edit ∈ edits ↔ edit ∈ others) :
    edits.eraseDups.Perm others.eraseDups := by
  apply (List.perm_ext_iff_of_nodup (nodup_eraseDups edits) (nodup_eraseDups others)).2
  intro edit
  rw [List.mem_eraseDups, List.mem_eraseDups, h]

private theorem backToFront_of_perm (hperm : edits.Perm others)
    (hspans : Edit.DistinctSpans edits) :
    backToFront edits = backToFront others := by
  have hsorted : (backToFront edits).Perm (backToFront others) :=
    (List.mergeSort_perm edits _).trans (hperm.trans (List.mergeSort_perm others _).symm)
  apply List.Perm.eq_of_pairwise _ (pairwise_backToFront edits) (pairwise_backToFront others)
    hsorted
  intro a b ha hb hba hab
  have ha : a ∈ edits := List.mem_mergeSort.1 ha
  have hb : b ∈ edits := hperm.mem_iff.2 (List.mem_mergeSort.1 hb)
  exact hspans a ha b hb (Span.le_antisymm hab hba)

end Sorting

namespace FixResult

variable (length : Nat) (result : FixResult) (subsumed : List Edit)

private theorem step_subsumed (edit : Edit) :
    step length { result with subsumed := subsumed } edit =
      { step length result edit with subsumed := subsumed } := by
  unfold step
  split
  · rfl
  · split <;> rfl

theorem foldl_subsumed (edits : List Edit) :
    edits.foldl (step length) { result with subsumed := subsumed } =
      { edits.foldl (step length) result with subsumed := subsumed } := by
  induction edits generalizing result with
  | nil => rfl
  | cons edit edits ih => rw [List.foldl_cons, step_subsumed, ih, List.foldl_cons]

end FixResult

/-- The edits that are made in turn: those that no deletion subsumes, each once, from back to
front. -/
private def inTurn (edits : List Edit) : List Edit :=
  backToFront (edits.eraseDups.filter fun edit => !edit.isSubsumed edits.eraseDups)

private theorem applyEdits_eq_foldl (source : Text) (edits : List Edit) :
    applyEdits source edits =
      { (inTurn edits).foldl (FixResult.step source.length) ⟨source, [], [], []⟩ with
        subsumed := edits.eraseDups.filter fun edit => edit.isSubsumed edits.eraseDups } :=
  FixResult.foldl_subsumed source.length ⟨source, [], [], []⟩ _ (inTurn edits)

section SameEdits

variable {edits others : List Edit}

private theorem isSubsumed_eraseDups (h : ∀ edit, edit ∈ edits ↔ edit ∈ others) (edit : Edit) :
    edit.isSubsumed edits.eraseDups = edit.isSubsumed others.eraseDups :=
  Edit.isSubsumed_congr (fun _ => (perm_eraseDups h).mem_iff) edit

private theorem inTurn_of_same (h : ∀ edit, edit ∈ edits ↔ edit ∈ others)
    (hspans : Edit.DistinctSpans edits) : inTurn edits = inTurn others := by
  unfold inTurn
  simp only [← isSubsumed_eraseDups h]
  apply backToFront_of_perm ((perm_eraseDups h).filter _)
  intro a ha b hb
  exact hspans a (List.mem_eraseDups.1 (List.mem_filter.1 ha).1) b
    (List.mem_eraseDups.1 (List.mem_filter.1 hb).1)

private theorem perm_subsumed (source : Text) (h : ∀ edit, edit ∈ edits ↔ edit ∈ others) :
    (applyEdits source edits).subsumed.Perm (applyEdits source others).subsumed := by
  simp only [applyEdits_eq_foldl, ← isSubsumed_eraseDups h]
  exact (perm_eraseDups h).filter _

/-- Where no two different edits share a span, listing the same edits in another order or
some of them more than once changes neither the text nor the edits that are applied and
skipped, and those that are subsumed in their order at most. -/
theorem applyEdits_rearranged (source : Text) (h : ∀ edit, edit ∈ edits ↔ edit ∈ others)
    (hspans : Edit.DistinctSpans edits) :
    (applyEdits source edits).text = (applyEdits source others).text ∧
      (applyEdits source edits).applied = (applyEdits source others).applied ∧
      (applyEdits source edits).skipped = (applyEdits source others).skipped ∧
      (applyEdits source edits).subsumed.Perm (applyEdits source others).subsumed := by
  have hturn := inTurn_of_same h hspans
  refine ⟨?_, ?_, ?_, perm_subsumed source h⟩
  · rw [applyEdits_eq_foldl, applyEdits_eq_foldl, hturn]
  · rw [applyEdits_eq_foldl, applyEdits_eq_foldl, hturn]
  · rw [applyEdits_eq_foldl, applyEdits_eq_foldl, hturn]

end SameEdits

def entangled : List Edit :=
  [.delete ⟨1, 5, by decide⟩, .replace ⟨2, 4, by decide⟩ "XY".toList, .insert 3 "!".toList,
    .replace ⟨4, 6, by decide⟩ "Z".toList, .insert 0 "<".toList, .delete ⟨7, 9, by decide⟩]

def disentangled : List Edit :=
  [.insert 0 "<".toList, .insert 3 "!".toList, .delete ⟨7, 9, by decide⟩,
    .replace ⟨4, 6, by decide⟩ "Z".toList, .insert 3 "!".toList, .delete ⟨1, 5, by decide⟩,
    .insert 0 "<".toList, .replace ⟨2, 4, by decide⟩ "XY".toList]

theorem applyEdits_rearranged_entangled :
    (∀ edit, edit ∈ entangled ↔ edit ∈ disentangled) ∧ Edit.DistinctSpans entangled ∧
      (applyEdits "abcdefgh".toList disentangled).text = "<abcdZgh".toList ∧
      (applyEdits "abcdefgh".toList entangled).text =
        (applyEdits "abcdefgh".toList disentangled).text ∧
      (applyEdits "abcdefgh".toList entangled).applied =
        (applyEdits "abcdefgh".toList disentangled).applied ∧
      (applyEdits "abcdefgh".toList entangled).skipped =
        (applyEdits "abcdefgh".toList disentangled).skipped ∧
      (applyEdits "abcdefgh".toList entangled).subsumed.Perm
        (applyEdits "abcdefgh".toList disentangled).subsumed := by
  have hto : ∀ edit ∈ entangled, edit ∈ disentangled := by decide
  have hback : ∀ edit ∈ disentangled, edit ∈ entangled := by decide
  have hsame (edit : Edit) : edit ∈ entangled ↔ edit ∈ disentangled :=
    ⟨hto edit, hback edit⟩
  have hspans : Edit.DistinctSpans entangled := by decide
  exact ⟨hsame, hspans, by cbv, applyEdits_rearranged _ hsame hspans⟩

example : (applyEdits "ab".toList [.insert 1 ['x'], .insert 1 ['y']]).text = "axb".toList ∧
    (applyEdits "ab".toList [.insert 1 ['y'], .insert 1 ['x']]).text = "ayb".toList := by
  constructor <;> cbv

end OverrideLint
