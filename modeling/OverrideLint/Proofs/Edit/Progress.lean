import OverrideLint.Proofs.Edit.Compatible

/-! Of any edits within the text at least one is applied. A deletion is swallowed by wider
ones alone, so not every edit is swallowed, and the first of the others meets no conflict. -/
namespace OverrideLint

namespace Span

theorem contains_self (span : Span) : span.contains span = true :=
  contains_eq_true.2 ⟨Nat.le_refl _, Nat.le_refl _⟩

theorem contains_trans {outer middle inner : Span} (houter : outer.contains middle = true)
    (hinner : middle.contains inner = true) : outer.contains inner = true := by
  rw [contains_eq_true] at houter hinner ⊢
  omega

end Span

namespace Edit

private theorem eq_of_isDeletion {a b : Edit} (ha : a.isDeletion = true) (hb : b.isDeletion = true)
    (hspan : a.span = b.span) : a = b := by
  cases a with
  | insert offset text => cases ha
  | replace span text => cases ha
  | delete span =>
    cases b with
    | insert offset text => cases hb
    | replace span text => cases hb
    | delete span => exact congrArg delete hspan

theorem SwallowedBy.width_lt {edit deletion : Edit} (h : edit.SwallowedBy deletion)
    (hedit : edit.isDeletion = true) : edit.span.width < deletion.span.width := by
  have hcontains := Span.contains_eq_true.1 h.contains
  have hle := edit.span.start_le_stop
  have hne : edit.span ≠ deletion.span :=
    fun hspan => h.ne (eq_of_isDeletion h.isDeletion hedit hspan.symm)
  have hstop : edit.span.start = deletion.span.start → edit.span.stop ≠ deletion.span.stop :=
    fun hstart hstop => hne (Span.ext hstart hstop)
  unfold Span.width
  omega

/-- A deletion is kept, or a wider one that swallows it, or one that swallows that one, and so
on up to the length of the text. -/
theorem exists_deletion_not_swallowed {edits : List Edit} {length : Nat}
    (hin : ∀ edit ∈ edits, edit.span.stop ≤ length) {deletion : Edit} (hmem : deletion ∈ edits)
    (hdeletion : deletion.isDeletion = true) :
    ∃ kept ∈ edits, kept.isDeletion = true ∧ kept.span.contains deletion.span = true ∧
      ∀ other ∈ edits, ¬ kept.SwallowedBy other := by
  by_cases hswallowed : ∃ wider ∈ edits, deletion.SwallowedBy wider
  · obtain ⟨wider, hwider, hswallowed⟩ := hswallowed
    have hlt := hswallowed.width_lt hdeletion
    have hle := hin wider hwider
    have hwidth : wider.span.width ≤ wider.span.stop := Nat.sub_le ..
    obtain ⟨kept, hkept, hkind, hcontains, hfree⟩ :=
      exists_deletion_not_swallowed hin hwider hswallowed.isDeletion
    exact ⟨kept, hkept, hkind, Span.contains_trans hcontains hswallowed.contains, hfree⟩
  · refine ⟨deletion, hmem, hdeletion, ?_, ?_⟩
    · exact Span.contains_self deletion.span
    · exact fun other hother hgone => hswallowed ⟨other, hother, hgone⟩
termination_by length - deletion.span.width

theorem exists_not_swallowed {edits : List Edit} {length : Nat}
    (hin : ∀ edit ∈ edits, edit.span.stop ≤ length) (hne : edits ≠ []) :
    ∃ kept ∈ edits, ∀ other ∈ edits, ¬ kept.SwallowedBy other := by
  obtain ⟨edit, hmem⟩ := List.exists_mem_of_ne_nil edits hne
  by_cases hswallowed : ∃ deletion ∈ edits, edit.SwallowedBy deletion
  · obtain ⟨deletion, hdeletion, hswallowed⟩ := hswallowed
    obtain ⟨kept, hkept, -, -, hfree⟩ :=
      exists_deletion_not_swallowed hin hdeletion hswallowed.isDeletion
    exact ⟨kept, hkept, hfree⟩
  · exact ⟨edit, hmem, fun other hother hgone => hswallowed ⟨other, hother, hgone⟩⟩

end Edit

theorem applied_ne_nil {source : Text} {edits : List Edit}
    (hin : ∀ edit ∈ edits, edit.span.stop ≤ source.length) (hne : edits ≠ []) :
    (applyEdits source edits).applied ≠ [] := by
  obtain ⟨kept, hmem, hfree⟩ := Edit.exists_not_swallowed hin hne
  unfold applyEdits
  have hkept := (mem_kept_iff edits kept).2 ⟨hmem, hfree⟩
  rcases FixResult.applied_foldl_or hkept with happlied | hout | ⟨other, hother, _⟩
  · exact List.ne_nil_of_mem happlied
  · exact absurd (hin kept hmem) (Nat.not_le_of_lt hout)
  · exact List.ne_nil_of_mem hother

end OverrideLint
