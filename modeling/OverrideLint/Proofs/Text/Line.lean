import OverrideLint.Proofs.Text.Coordinates

/-! The line at a position, as a part of the text: it lies between the line feeds, or the ends
of the text, that are next to the offset. -/
namespace OverrideLint.Text

theorem line_positionOf (text : Text) (offset : Nat) :
    (positionOf text offset).line = 1 + (text.take offset).count '\n' := by
  induction text generalizing offset with
  | nil => simp [positionOf_nil]
  | cons c rest ih =>
    cases offset with
    | zero => simp
    | succ n =>
      rw [positionOf_cons, List.take_succ_cons]
      by_cases hc : c = '\n'
      · rw [hc, Position.behind_lineFeed, List.count_cons_self, ih]
        exact Nat.add_assoc ..
      · rw [List.count_cons_of_ne hc, ← ih]
        grind [Position.behind]

structure IsLine (text before line after : Text) : Prop where
  parts : text = before ++ line ++ after
  unbroken : '\n' ∉ line
  opens : before = [] ∨ before.getLast? = some '\n'
  closes : after = [] ∨ after.head? = some '\n'

section IsLine

variable {text before line after : Text} {c : Char}

theorem IsLine.lengthen (h : IsLine text [] line after) (hc : c ≠ '\n') :
    IsLine (c :: text) [] (c :: line) after where
  parts := by rw [h.parts]; rfl
  unbroken := by simpa [Ne.symm hc] using h.unbroken
  opens := .inl rfl
  closes := h.closes

theorem IsLine.behind (h : IsLine text before line after)
    (hc : c = '\n' ∨ before ≠ []) : IsLine (c :: text) (c :: before) line after where
  parts := by rw [h.parts]; rfl
  unbroken := h.unbroken
  opens := by
    right
    rcases h.opens with rfl | hlast
    · simp_all
    · rw [List.getLast?_cons, hlast]
      rfl
  closes := h.closes

private theorem exists_isLine_first (text : Text) : ∃ after, IsLine text []
    (lineText text 1) after := by
  induction text with
  | nil => exact ⟨[], rfl, List.not_mem_nil, .inl rfl, .inl rfl⟩
  | cons c rest ih =>
    by_cases hc : c = '\n'
    · subst hc
      rw [lineText_lineFeed_one]
      exact ⟨'\n' :: rest, rfl, List.not_mem_nil, .inl rfl, .inr rfl⟩
    · obtain ⟨after, hline⟩ := ih
      rw [lineText_cons_one hc]
      exact ⟨after, hline.lengthen hc⟩

theorem IsLine.before_eq_nil (h : IsLine text before line after) (hnone : before.count '\n' = 0) :
    before = [] := by
  rcases h.opens with hnil | hlast
  · exact hnil
  · exact absurd (List.mem_of_getLast? hlast) (List.count_eq_zero.1 hnone)

/-- The line at an offset: its number counts the line feeds before it, and the column the
characters between its start and the offset. -/
theorem exists_isLine {offset : Nat} (h : offset ≤ text.length) :
    ∃ before after, IsLine text before (lineText text (positionOf text offset).line) after ∧
      before.count '\n' + 1 = (positionOf text offset).line ∧
      before.length + (positionOf text offset).column = offset + 1 := by
  induction text generalizing offset with
  | nil =>
    obtain rfl : offset = 0 := Nat.le_zero.1 h
    obtain ⟨after, hline⟩ := exists_isLine_first []
    exact ⟨[], after, hline, rfl, rfl⟩
  | cons c rest ih =>
    cases offset with
    | zero =>
      obtain ⟨after, hline⟩ := exists_isLine_first (c :: rest)
      rw [positionOf_zero]
      exact ⟨[], after, hline, rfl, rfl⟩
    | succ n =>
      obtain ⟨before, after, hline, hnumber, hcolumn⟩ := ih (Nat.le_of_succ_le_succ h)
      rw [positionOf_cons]
      by_cases hc : c = '\n'
      · subst hc
        refine ⟨'\n' :: before, after, ?_, ?_, ?_⟩
        · rw [Position.behind_lineFeed, ← hnumber, lineText_lineFeed, hnumber]
          exact hline.behind (.inl rfl)
        · rw [Position.behind_lineFeed, List.count_cons_self, hnumber]
        · rw [Position.behind_lineFeed, List.length_cons, Nat.add_right_comm, hcolumn]
      · by_cases hfirst : (positionOf rest n).line = 1
        · -- On the first line the character belongs to the line itself.
          obtain rfl : before = [] := hline.before_eq_nil (by omega)
          rw [hfirst] at hline
          have hposition : (positionOf rest n).behind c = ⟨1, (positionOf rest n).column + 1⟩ := by
            rw [Position.behind, if_neg hc, if_pos hfirst]
          rw [hposition, lineText_cons_one hc]
          refine ⟨[], after, hline.lengthen hc, rfl, ?_⟩
          rw [← Nat.add_assoc, hcolumn]
        · rw [Position.behind_later hc hfirst]
          obtain ⟨m, hm⟩ : ∃ m, (positionOf rest n).line = m + 2 :=
            ⟨(positionOf rest n).line - 2, by omega⟩
          refine ⟨c :: before, after, ?_, ?_, ?_⟩
          · rw [hm, lineText_cons hc, ← hm]
            apply hline.behind
            right
            rintro rfl
            exact hfirst hnumber.symm
          · rw [List.count_cons_of_ne hc, hnumber]
          · rw [List.length_cons, Nat.add_right_comm, hcolumn]

end IsLine
end OverrideLint.Text
