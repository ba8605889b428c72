import OverrideLint.Text.CodePoint

/-! A code point is known by its code, and a text by the string of its characters. -/
namespace OverrideLint

namespace CodePoint

private theorem char_code_ne_surrogate (c : Char) (s : Surrogate) : c.toNat ≠ s.code := by
  have hvalid := c.valid
  have hrange := s.inRange
  simp only [UInt32.isValidChar, Nat.isValidChar] at hvalid
  change c.val.toNat ≠ s.code
  omega

theorem code_inj {p q : CodePoint} : p.code = q.code ↔ p = q := by
  refine ⟨fun h => ?_, congrArg code⟩
  cases p with
  | char c =>
    cases q with
    | char d => exact congrArg char (Char.toNat_inj.1 h)
    | surrogate s => exact absurd h (char_code_ne_surrogate c s)
  | surrogate s =>
    cases q with
    | char d => exact absurd h.symm (char_code_ne_surrogate d s)
    | surrogate t =>
      cases s
      cases t
      cases h
      rfl

theorem toNat_charOfNat {n : Nat} (h : n.isValidChar) : (Char.ofNat n).toNat = n := by
  rw [Char.ofNat, dif_pos h]
  rfl

/-- A unit keeps its code, also if it is a surrogate. -/
theorem code_ofUnit {unit : Nat} (h : unit < 0x10000) : (ofUnit unit).code = unit := by
  unfold ofUnit
  split
  · rfl
  · refine toNat_charOfNat ?_
    unfold Nat.isValidChar
    omega

end CodePoint

namespace WideString

theorem toText?_eq_some_iff {s : WideString} {text : Text} :
    s.toText? = some text ↔ s = ofText text := by
  obtain ⟨points⟩ := s
  simp only [toText?, ofText, mk.injEq]
  induction points generalizing text with
  | nil => cases text <;> simp
  | cons point points ih =>
    rw [List.mapM_cons]
    cases point with
    | surrogate s => cases text <;> simp [CodePoint.char?]
    | char c =>
      cases text with
      | nil => simp [CodePoint.char?, Option.bind_eq_some_iff]
      | cons d text => simpa [CodePoint.char?, Option.bind_eq_some_iff, ih] using and_comm

end WideString
end OverrideLint
