import OverrideLint.Text.Blank

/-! What trimming takes away: the blanks at the end of a text. -/
namespace OverrideLint.Text

def trailing (text : Text) : Text :=
  (text.reverse.takeWhile isBlank).reverse

theorem trimRight_append_trailing (text : Text) : trimRight text ++ trailing text = text := by
  unfold trimRight trailing
  rw [← List.reverse_append, List.takeWhile_append_dropWhile, List.reverse_reverse]

theorem isBlank_of_mem_trailing {text : Text} {c : Char} (h : c ∈ trailing text) :
    isBlank c = true := by
  unfold trailing at h
  exact List.all_eq_true.1 List.all_takeWhile c (List.mem_reverse.1 h)

theorem mem_of_mem_trailing {text : Text} {c : Char} (h : c ∈ trailing text) : c ∈ text := by
  rw [← trimRight_append_trailing text]
  exact List.mem_append_right _ h

theorem trailing_concat {text : Text} {c : Char} (h : isBlank c = true) :
    trailing (text ++ [c]) = trailing text ++ [c] := by
  unfold trailing
  rw [List.reverse_append, List.reverse_singleton, List.singleton_append,
    List.takeWhile_cons_of_pos h, List.reverse_cons]

theorem trimRight_append_blanks (text : Text) {blanks : Text}
    (h : ∀ c ∈ blanks, isBlank c = true) : trimRight (text ++ blanks) = trimRight text := by
  unfold trimRight
  rw [List.reverse_append, List.dropWhile_append_of_pos]
  intro c hc
  exact h c (List.mem_reverse.1 hc)

end OverrideLint.Text
