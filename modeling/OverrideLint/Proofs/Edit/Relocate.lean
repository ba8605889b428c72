import OverrideLint.Proofs.Edit.Splice

/-! Where text stands after a splice. The pass over a part of the text looks at nothing
but the edits that touch it, so what becomes of the part follows from these alone. -/
namespace OverrideLint.Edit

/-- The pass over a part of the text that starts at an offset. What is written at its end
comes with the next part. -/
def splicePart (edits : List Edit) (offset : Nat) : Text → Text
  | [] => []
  | c :: rest =>
    writtenAt edits offset ++ (if edits.any (·.covers offset) then [] else [c]) ++
      splicePart edits (offset + 1) rest

/-- Where that stands which stood at an offset: behind all that is left of the text
before it. -/
def relocate (edits : List Edit) (source : Text) (offset : Nat) : Nat :=
  (splicePart edits 0 (source.take offset)).length

def Touches (edit : Edit) (start stop : Nat) : Prop :=
  edit.span.start < stop ∧ (start < edit.span.stop ∨ start ≤ edit.span.start)

variable {edits : List Edit}

theorem splicePart_append (offset : Nat) (a b : Text) :
    splicePart edits offset (a ++ b) =
      splicePart edits offset a ++ splicePart edits (offset + a.length) b := by
  induction a generalizing offset with
  | nil => rfl
  | cons c a ih =>
    simp only [List.cons_append, splicePart, ih, List.append_assoc, List.length_cons]
    rw [Nat.add_assoc, Nat.add_comm 1]

theorem spliceFrom_part (edits : List Edit) (offset : Nat) (a b : Text) :
    spliceFrom edits offset (a ++ b) =
      splicePart edits offset a ++ spliceFrom edits (offset + a.length) b := by
  induction a generalizing offset with
  | nil => rfl
  | cons c a ih =>
    simp only [List.cons_append, spliceFrom, splicePart, ih, List.append_assoc, List.length_cons]
    rw [Nat.add_assoc, Nat.add_comm 1]

private theorem exists_spliceFrom_eq (edits : List Edit) (offset : Nat) (source : Text) :
    ∃ rest, spliceFrom edits offset source = writtenAt edits offset ++ rest := by
  cases source with
  | nil => exact ⟨[], (List.append_nil _).symm⟩
  | cons c source => exact ⟨_, List.append_assoc ..⟩

theorem splicePart_of_untouched (offset : Nat) (part : Text)
    (h : ∀ edit ∈ edits, ¬ edit.Touches offset (offset + part.length)) :
    splicePart edits offset part = part := by
  induction part generalizing offset with
  | nil => rfl
  | cons c part ih =>
    simp only [Touches, List.length_cons] at h
    have hwritten : writtenAt edits offset = [] := by
      apply writtenAt_eq_nil
      intro edit hmem
      have := h edit hmem
      omega
    have hcovers : edits.any (·.covers offset) = false := by
      apply List.any_eq_false.2
      intro edit hmem
      have := h edit hmem
      simp only [covers, Bool.and_eq_true, decide_eq_true_eq]
      omega
    have hrest := ih (offset + 1) (by
      intro edit hmem
      have := h edit hmem
      unfold Touches
      omega)
    rw [splicePart, hwritten, hcovers, hrest]
    rfl

theorem splicePart_covered {edit : Edit} (hmem : edit ∈ edits) (offset : Nat) (part : Text)
    (hstart : edit.span.start < offset) (hstop : offset + part.length = edit.span.stop)
    (hother : ∀ other ∈ edits, offset ≤ other.span.start → edit.span.stop ≤ other.span.start) :
    splicePart edits offset part = [] := by
  induction part generalizing offset with
  | nil => rfl
  | cons c part ih =>
    rw [List.length_cons] at hstop
    have hwritten : writtenAt edits offset = [] := by
      apply writtenAt_eq_nil
      intro other hother'
      have := hother other hother'
      omega
    have hcovers : edits.any (·.covers offset) = true := by
      apply List.any_eq_true.2 ⟨edit, hmem, ?_⟩
      simp only [covers, Bool.and_eq_true, decide_eq_true_eq]
      omega
    have hrest := ih (offset + 1) (by omega) (by omega) fun other h hle =>
      hother other h (by omega)
    rw [splicePart, hwritten, hcovers, hrest]
    rfl

theorem Descending.nodup (h : Descending edits) : edits.Nodup := by
  refine h.imp ?_
  rintro a b hba rfl
  exact hba.2 rfl

theorem eq_singleton_of_nodup {edit : Edit} (hnodup : edits.Nodup)
    (h : ∀ other, other ∈ edits ↔ other = edit) : edits = [edit] := by
  have hperm : edits.Perm [edit] := by
    apply (List.perm_ext_iff_of_nodup hnodup (List.pairwise_singleton ..)).2
    intro other
    rw [h, List.mem_singleton]
  exact List.perm_singleton.1 hperm

theorem writtenAt_of_unique {edit : Edit} (hnodup : edits.Nodup) (hmem : edit ∈ edits)
    (hunique : ∀ other ∈ edits, other.span.start = edit.span.start → other = edit) :
    writtenAt edits edit.span.start = edit.text := by
  have hstarting : edits.filter (·.span.start == edit.span.start) = [edit] := by
    apply eq_singleton_of_nodup (hnodup.filter _)
    intro other
    rw [List.mem_filter, beq_iff_eq]
    constructor
    · rintro ⟨h, hstart⟩
      exact hunique other h hstart
    · rintro rfl
      exact ⟨hmem, rfl⟩
  rw [writtenAt, hstarting]
  by_cases hwidth : edit.span.width = 0 <;> simp [hwidth]

private theorem splicePart_of_edit {edit : Edit} {part : Text} (hdescending : Descending edits)
    (hmem : edit ∈ edits) (hpart : part ≠ [])
    (hlength : edit.span.start + part.length = edit.span.stop)
    (honly : ∀ other ∈ edits, other.Touches edit.span.start edit.span.stop → other = edit) :
    splicePart edits edit.span.start part = edit.text := by
  cases part with
  | nil => exact absurd rfl hpart
  | cons c part =>
    rw [List.length_cons] at hlength
    have hwritten : writtenAt edits edit.span.start = edit.text := by
      apply writtenAt_of_unique hdescending.nodup hmem
      intro other h hstart
      apply honly other h
      unfold Touches
      omega
    have hcovers : edits.any (·.covers edit.span.start) = true := by
      apply List.any_eq_true.2 ⟨edit, hmem, ?_⟩
      simp only [covers, Bool.and_eq_true, decide_eq_true_eq]
      omega
    have hrest : splicePart edits (edit.span.start + 1) part = [] := by
      apply splicePart_covered hmem _ _ (Nat.lt_succ_self _) (by omega)
      intro other h hstart
      by_cases htouches : other.Touches edit.span.start edit.span.stop
      · rw [honly other h htouches] at hstart
        omega
      · unfold Touches at htouches
        omega
    rw [splicePart, hwritten, hcovers, hrest, if_pos rfl, List.append_nil, List.append_nil]

theorem splicePart_around {edit : Edit} {offset : Nat} (before part after : Text)
    (hdescending : Descending edits) (hmem : edit ∈ edits) (hpart : part ≠ [])
    (hstart : edit.span.start = offset + before.length)
    (hstop : edit.span.stop = offset + before.length + part.length)
    (honly : ∀ other ∈ edits,
      other.Touches offset (offset + (before ++ (part ++ after)).length) → other = edit) :
    splicePart edits offset (before ++ (part ++ after)) = before ++ (edit.text ++ after) := by
  have hpos := List.length_pos_iff.2 hpart
  simp only [Touches, List.length_append] at honly
  have hbefore : splicePart edits offset before = before := by
    apply splicePart_of_untouched
    intro other hother htouches
    unfold Touches at htouches
    have := honly other hother (by omega)
    subst this
    omega
  have hafter : splicePart edits (offset + before.length + part.length) after = after := by
    apply splicePart_of_untouched
    intro other hother htouches
    unfold Touches at htouches
    have := honly other hother (by omega)
    subst this
    omega
  have hinside : splicePart edits (offset + before.length) part = edit.text := by
    rw [← hstart]
    apply splicePart_of_edit hdescending hmem hpart (by omega)
    intro other hother htouches
    unfold Touches at htouches
    exact honly other hother (by omega)
  rw [splicePart_append, splicePart_append, hbefore, hinside, hafter]

/-- What stands between two offsets of the unedited text stands between the places to
which they move. -/
theorem slice_splice {source : Text} {start stop : Nat} (hle : start ≤ stop)
    (hin : stop ≤ source.length) :
    Text.slice (splice edits source) (relocate edits source start) (relocate edits source stop) =
      splicePart edits start (Text.slice source start stop) := by
  obtain ⟨before, inside, after, rfl, hstart, hstop⟩ := Text.exists_parts source hle hin
  have hinside : Text.slice (before ++ inside ++ after) start stop = inside := by
    rw [Text.slice, List.append_assoc, List.drop_left' hstart, List.take_left' (by omega)]
  have hfirst : (before ++ inside ++ after).take start = before := by
    rw [List.append_assoc, List.take_left' hstart]
  have hboth : (before ++ inside ++ after).take stop = before ++ inside := by
    rw [List.take_left' (by rw [List.length_append]; omega)]
  rw [hinside, relocate, relocate, hfirst, hboth, splice, List.append_assoc, spliceFrom_part,
    spliceFrom_part, splicePart_append, Nat.zero_add, hstart, Text.slice, List.drop_left' rfl,
    List.length_append, Nat.add_sub_cancel_left, List.take_left' rfl]

theorem slice_splice_written {source : Text} {offset : Nat} (hin : offset ≤ source.length)
    {written : Text} (h : written <+: writtenAt edits offset) :
    Text.slice (splice edits source) (relocate edits source offset)
      (relocate edits source offset + written.length) = written := by
  obtain ⟨more, hmore⟩ := h
  obtain ⟨rest, hrest⟩ := exists_spliceFrom_eq edits offset (source.drop offset)
  have hsplice : splice edits source =
      splicePart edits 0 (source.take offset) ++ (written ++ (more ++ rest)) := by
    have := spliceFrom_part edits 0 (source.take offset) (source.drop offset)
    rw [List.take_append_drop, List.length_take, Nat.min_eq_left hin, Nat.zero_add, hrest,
      ← hmore] at this
    rw [splice, this, List.append_assoc written]
  rw [hsplice, relocate, Text.slice, List.drop_left' rfl, Nat.add_sub_cancel_left,
    List.take_left' rfl]

end OverrideLint.Edit
