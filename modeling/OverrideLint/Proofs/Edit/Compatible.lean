import OverrideLint.Proofs.Edit.Splice

/-! Edits none of which has to be skipped: any two of them are apart from each other, or
one is a deletion that takes the other with it. -/
namespace OverrideLint

namespace Edit

theorem conflicts_comm (a b : Edit) : a.conflicts b = b.conflicts a := by
  unfold conflicts
  rw [Span.overlaps_comm, Bool.beq_comm]

theorem conflicts_eq_false {a b : Edit} :
    a.conflicts b = false ↔ a.span.overlaps b.span = false ∧ a.span ≠ b.span := by
  rw [conflicts, Bool.or_eq_false_iff, beq_eq_false_iff_ne]

theorem conflicts_eq_false_of_le {a b : Edit} (ha : a.span.start < a.span.stop)
    (hle : a.span.stop ≤ b.span.start) : a.conflicts b = false := by
  rw [conflicts_eq_false]
  constructor
  · rw [Span.overlaps_eq_false]
    exact .inr hle
  · intro heq
    rw [heq] at ha hle
    omega

theorem SwallowedBy.conflicts {edit deletion : Edit} (h : edit.SwallowedBy deletion) :
    edit.conflicts deletion = true := by
  have hcontains := Span.contains_eq_true.1 h.contains
  have hinside := h.inside
  have hle := edit.span.start_le_stop
  unfold Span.width at hinside
  have hoverlaps : edit.span.overlaps deletion.span = true := by
    simp only [Span.overlaps, Bool.and_eq_true, decide_eq_true_eq]
    omega
  rw [Edit.conflicts, hoverlaps, Bool.true_or]

/-- Any two different edits are apart, or one of them swallows the other. -/
def Compatible (edits : List Edit) : Prop :=
  ∀ a ∈ edits, ∀ b ∈ edits, a ≠ b →
    a.conflicts b = false ∨ a.SwallowedBy b ∨ b.SwallowedBy a

end Edit

namespace FixResult

theorem foldl_of_free (length : Nat) (result : FixResult) {edits : List Edit}
    (hin : ∀ edit ∈ edits, edit.span.stop ≤ length)
    (hfree : edits.Pairwise fun a b => a.conflicts b = false)
    (happlied : ∀ edit ∈ edits, ∀ other ∈ result.applied, edit.conflicts other = false) :
    (edits.foldl (step length) result).skipped = result.skipped ∧
      (edits.foldl (step length) result).applied = result.applied ++ edits := by
  induction edits generalizing result with
  | nil => exact ⟨rfl, (List.append_nil _).symm⟩
  | cons edit edits ih =>
    obtain ⟨hfirst, hrest⟩ := List.pairwise_cons.1 hfree
    have hstep : result.step length edit =
        { result with text := edit.apply result.text, applied := result.applied ++ [edit] } := by
      rw [step, if_neg (Nat.not_lt.2 (hin edit List.mem_cons_self)), if_neg]
      rw [Bool.not_eq_true, List.any_eq_false]
      intro other hmem
      rw [happlied edit List.mem_cons_self other hmem]
      exact Bool.false_ne_true
    obtain ⟨hskipped, hall⟩ := ih (result.step length edit)
      (fun later hmem => hin later (List.mem_cons_of_mem _ hmem)) hrest (by
        intro later hmem other hother
        rw [hstep] at hother
        rcases List.mem_append.1 hother with hold | hnew
        · exact happlied later (List.mem_cons_of_mem _ hmem) other hold
        · rw [List.mem_singleton.1 hnew, Edit.conflicts_comm]
          exact hfirst later hmem)
    rw [List.foldl_cons, hskipped, hall, hstep]
    exact ⟨rfl, by simp⟩

end FixResult

theorem nodup_eraseDups (edits : List Edit) : edits.eraseDups.Nodup := by
  match edits with
  | [] => exact List.Pairwise.nil
  | first :: rest =>
    rw [List.eraseDups_cons, List.nodup_cons]
    refine ⟨?_, nodup_eraseDups _⟩
    intro hmem
    have := (List.mem_filter.1 (List.mem_eraseDups.1 hmem)).2
    simp at this
termination_by edits.length
decreasing_by exact Nat.lt_succ_of_le (List.length_filter_le ..)

/-- Of compatible edits none is skipped, and those are applied that no other swallows. -/
theorem applyEdits_of_compatible {source : Text} {edits : List Edit}
    (hin : ∀ edit ∈ edits, edit.span.stop ≤ source.length) (h : Edit.Compatible edits) :
    (applyEdits source edits).skipped = [] ∧
      ∀ edit, edit ∈ (applyEdits source edits).applied ↔
        edit ∈ edits ∧ ∀ deletion ∈ edits, ¬ edit.SwallowedBy deletion := by
  have hkept := mem_kept_iff edits
  have hfree : (backToFront (edits.eraseDups.filter fun e =>
      !e.isSubsumed edits.eraseDups)).Pairwise fun a b => a.conflicts b = false := by
    have hnodup : (backToFront (edits.eraseDups.filter fun e =>
        !e.isSubsumed edits.eraseDups)).Nodup :=
      (List.mergeSort_perm _ _).nodup_iff.2 (List.Pairwise.filter _ (nodup_eraseDups edits))
    refine hnodup.imp_of_mem ?_
    intro a b ha hb hne
    obtain ⟨ha, haFree⟩ := (hkept _).1 ha
    obtain ⟨hb, hbFree⟩ := (hkept _).1 hb
    rcases h a ha b hb hne with hapart | hswallowed | hswallowed
    · exact hapart
    · exact absurd hswallowed (haFree b hb)
    · exact absurd hswallowed (hbFree a ha)
  obtain ⟨hskipped, happlied⟩ := FixResult.foldl_of_free source.length
    ⟨source, [], [], edits.eraseDups.filter fun e => e.isSubsumed edits.eraseDups⟩
    (fun edit hmem => hin edit ((hkept _).1 hmem).1) hfree (by
      intro edit _ other hother
      cases hother)
  refine ⟨hskipped, ?_⟩
  intro edit
  rw [← hkept]
  unfold applyEdits
  rw [happlied]
  rfl

end OverrideLint
