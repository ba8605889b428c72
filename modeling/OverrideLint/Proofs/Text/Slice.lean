import OverrideLint.Text.Blank

/-! Cutting a text at offsets, and putting the parts together again. -/
namespace OverrideLint.Text

theorem slice_append_drop (text : Text) {start stop : Nat} (h : start ≤ stop) :
    slice text start stop ++ text.drop stop = text.drop start := by
  have hdrop : text.drop stop = (text.drop start).drop (stop - start) := by
    rw [List.drop_drop]
    congr 1
    omega
  rw [slice, hdrop, List.take_append_drop]

private theorem take_append_slice_append_drop (text : Text) {start stop : Nat} (h : start ≤ stop) :
    text.take start ++ slice text start stop ++ text.drop stop = text := by
  rw [List.append_assoc, slice_append_drop text h, List.take_append_drop]

theorem exists_parts (text : Text) {start stop : Nat} (h : start ≤ stop)
    (hin : stop ≤ text.length) :
    ∃ before inside after, text = before ++ inside ++ after ∧ before.length = start ∧
      start + inside.length = stop := by
  refine ⟨text.take start, slice text start stop, text.drop stop,
    (take_append_slice_append_drop text h).symm, ?_, ?_⟩
  · rw [List.length_take]
    omega
  · rw [length_slice]
    omega

end OverrideLint.Text
