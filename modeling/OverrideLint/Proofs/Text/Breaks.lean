import OverrideLint.Text.Utf8

/-! Line breaks as a reader sees them. Every other character stays where it is. -/
namespace OverrideLint.Text

def isBreak (c : Char) : Bool := c == '\r' || c == '\n'

theorem filter_normalizeBreaks (text : Text) :
    (normalizeBreaks text).filter (!isBreak ·) = text.filter (!isBreak ·) := by
  fun_induction normalizeBreaks text with
  | case1 => rfl
  | case2 rest ih => simpa [isBreak] using ih
  | case3 rest hfeed ih => simpa [isBreak] using ih
  | case4 c rest hpair hreturn ih => simp [List.filter_cons, ih]

theorem return_notMem_normalizeBreaks (text : Text) : '\r' ∉ normalizeBreaks text := by
  fun_induction normalizeBreaks text with
  | case1 => simp
  | case2 rest ih => simpa using ih
  | case3 rest hfeed ih => simpa using ih
  | case4 c rest hpair hreturn ih =>
    simp only [List.mem_cons, not_or]
    exact ⟨fun h => hreturn h.symm, ih⟩

theorem normalizeBreaks_eq_self_iff {text : Text} : normalizeBreaks text = text ↔ '\r' ∉ text := by
  constructor
  · intro h
    rw [← h]
    exact return_notMem_normalizeBreaks text
  · intro h
    fun_induction normalizeBreaks text with
    | case1 => rfl
    | case2 rest ih => simp at h
    | case3 rest hfeed ih => simp at h
    | case4 c rest hpair hreturn ih =>
      rw [ih (List.not_mem_of_not_mem_cons h)]

theorem normalizeBreaks_normalizeBreaks (text : Text) :
    normalizeBreaks (normalizeBreaks text) = normalizeBreaks text :=
  normalizeBreaks_eq_self_iff.2 (return_notMem_normalizeBreaks text)

theorem normalizeBreaks_cons {c : Char} (h : c ≠ '\r') (rest : Text) :
    normalizeBreaks (c :: rest) = c :: normalizeBreaks rest := by
  rw [normalizeBreaks]
  all_goals simp [h]

theorem eq_nil_of_normalizeBreaks {text : Text} (h : normalizeBreaks text = []) : text = [] := by
  unfold normalizeBreaks at h
  split at h <;> trivial

theorem exists_cons_of_normalizeBreaks {c : Char} {text rest : Text} (hc : c ≠ '\n')
    (h : normalizeBreaks text = c :: rest) :
    ∃ after, text = c :: after ∧ normalizeBreaks after = rest := by
  unfold normalizeBreaks at h
  split at h
  · cases h
  · cases h
    exact absurd rfl hc
  · cases h
    exact absurd rfl hc
  · cases h
    exact ⟨_, rfl, rfl⟩

end OverrideLint.Text
