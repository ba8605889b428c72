import Mathlib.Data.List.TakeWhile
import OverrideLint.Proofs.Json.Grammar
import OverrideLint.Proofs.Text.CodePoint

/-! Strings and numbers as the reader takes them. A string ends at its closing quote. A number ends
where no character can go on with it, so what follows has to be told. -/
namespace OverrideLint.Json

section Strings

variable {start rest : Text}

private theorem readPoints_plain {c : Char} (hcontrol : ¬ c.toNat < 0x20) (hquote : c ≠ '"')
    (hescape : c ≠ '\\') :
    readPoints start (c :: rest) = prepend (.char c) (readPoints start rest) := by
  rw [readPoints]
  · rw [if_neg hcontrol]
  all_goals simp_all

private theorem readPoints_short {c char : Char} (h : shortEscape? c = some char) :
    readPoints start ('\\' :: c :: rest) = prepend (.char char) (readPoints start rest) := by
  have hunit : c ≠ 'u' := by
    rintro rfl
    cases h
  rw [readPoints]
  · rw [h]
  all_goals simp_all

private theorem readPoints_pair {a b c d e f g i next : Char} {high low : Nat}
    (hhigh : hexUnit? a b c d = some high) (hisHigh : isHighSurrogate high = true)
    (hlow : hexUnit? e f g i = some low) (hisLow : isLowSurrogate low = true) :
    readPoints start
        ('\\' :: 'u' :: a :: b :: c :: d :: '\\' :: 'u' :: e :: f :: g :: i :: next :: rest) =
      prepend (.char (Char.ofNat (pairCode high low))) (readPoints start (next :: rest)) := by
  rw [readPoints, hhigh]
  simp only [hisHigh, hlow, hisLow, if_true]

private theorem escape_cases (next : Char) (rest : Text) :
    (∃ e f g i more behind, next :: rest = '\\' :: 'u' :: e :: f :: g :: i :: more :: behind) ∨
      ∀ e f g i more behind, next = '\\' → rest = 'u' :: e :: f :: g :: i :: more :: behind →
        False := by
  by_cases h : ∃ e f g i more behind,
      next :: rest = '\\' :: 'u' :: e :: f :: g :: i :: more :: behind
  · exact .inl h
  · right
    rintro e f g i more behind rfl rfl
    exact h ⟨e, f, g, i, more, behind, rfl⟩

private theorem readPoints_badUnit {a b c d next : Char} (h : hexUnit? a b c d = none) :
    readPoints start ('\\' :: 'u' :: a :: b :: c :: d :: next :: rest) =
      .error (.malformed .unicodeEscape start) := by
  rcases escape_cases next rest with ⟨e, f, g, i, more, behind, heq⟩ | hother
  · cases heq
    rw [readPoints, h]
  · rw [readPoints, h]
    exact hother

private theorem readPoints_unit {a b c d next : Char} {unit : Nat}
    (h : hexUnit? a b c d = some unit)
    (halone : isHighSurrogate unit = true → ¬ StartsLow (next :: rest)) :
    readPoints start ('\\' :: 'u' :: a :: b :: c :: d :: next :: rest) =
      prepend (.ofUnit unit) (readPoints start (next :: rest)) := by
  rcases escape_cases next rest with ⟨e, f, g, i, more, behind, heq⟩ | hother
  · cases heq
    rw [readPoints, h]
    dsimp only
    split
    · rename_i hhigh
      cases hlow : hexUnit? e f g i with
      | none =>
        rw [readPoints_badUnit hlow]
        rfl
      | some low =>
        dsimp only
        rw [if_neg]
        exact fun hisLow => halone hhigh ⟨e, f, g, i, low, _, rfl, hlow, hisLow⟩
    · rfl
  · rw [readPoints, h]
    exact hother

theorem ne_of_hexUnit? {a b c d other : Char} {unit : Nat} (h : hexUnit? a b c d = some unit)
    (hother : hexValue? other = none) : a ≠ other ∧ b ≠ other ∧ c ≠ other ∧ d ≠ other := by
  refine ⟨?_, ?_, ?_, ?_⟩ <;>
  · rintro rfl
    simp [hexUnit?, hother] at h

private theorem startsLow_append_quote_iff {text : Text} :
    StartsLow (text ++ '"' :: rest) ↔ StartsLow text := by
  constructor
  · rintro ⟨a, b, c, d, low, more, heq, hlow, hisLow⟩
    have hquote : hexValue? '"' = none := by decide
    obtain ⟨ha, hb, hc, hd⟩ := ne_of_hexUnit? hlow hquote
    rcases text with _ | ⟨_, _ | ⟨_, _ | ⟨_, _ | ⟨_, _ | ⟨_, _ | ⟨_, text⟩⟩⟩⟩⟩⟩
    all_goals
      simp only [List.nil_append, List.cons_append, List.cons.injEq] at heq
    · exact absurd heq.1 (by decide)
    · exact absurd heq.2.1 (by decide)
    · exact absurd heq.2.2.1.symm ha
    · exact absurd heq.2.2.2.1.symm hb
    · exact absurd heq.2.2.2.2.1.symm hc
    · exact absurd heq.2.2.2.2.2.1.symm hd
    · obtain ⟨rfl, rfl, rfl, rfl, rfl, rfl, -⟩ := heq
      exact ⟨_, _, _, _, low, text, rfl, hlow, hisLow⟩
  · rintro ⟨a, b, c, d, low, more, rfl, hlow⟩
    exact ⟨a, b, c, d, low, more ++ '"' :: rest, rfl, hlow⟩

private theorem hexValue?_lt {c : Char} {n : Nat} (h : hexValue? c = some n) : n < 16 := by
  have hle (d : Char) : c ≤ d ↔ c.toNat ≤ d.toNat := Char.le_def.trans UInt32.le_iff_toNat_le
  simp only [hexValue?, hle, Char.reduceToNat] at h
  grind

private theorem hexUnit?_lt {a b c d : Char} {unit : Nat} (h : hexUnit? a b c d = some unit) :
    unit < 0x10000 := by
  simp only [hexUnit?, Option.bind_eq_bind, Option.bind_eq_some_iff, Option.pure_def,
    Option.some.injEq] at h
  obtain ⟨m, hm, n, hn, i, hi, j, hj, rfl⟩ := h
  have := hexValue?_lt hm
  have := hexValue?_lt hn
  have := hexValue?_lt hi
  have := hexValue?_lt hj
  omega

private theorem code_ofUnit_of_hexUnit? {a b c d : Char} {unit : Nat}
    (h : hexUnit? a b c d = some unit) : (CodePoint.ofUnit unit).code = unit :=
  CodePoint.code_ofUnit (hexUnit?_lt h)

private theorem ofUnit_of_hexUnit? {a b c d : Char} {point : CodePoint}
    (h : hexUnit? a b c d = some point.code) : CodePoint.ofUnit point.code = point :=
  CodePoint.code_inj.1 (code_ofUnit_of_hexUnit? h)

private theorem isValidChar_pairCode {high low : Nat} (hhigh : isHighSurrogate high = true)
    (hlow : isLowSurrogate low = true) : (pairCode high low).isValidChar := by
  simp only [isHighSurrogate, isLowSurrogate, Bool.and_eq_true, decide_eq_true_eq] at hhigh hlow
  unfold Nat.isValidChar pairCode
  omega

theorem readPoints_of_spells {points : List CodePoint} {text : Text} (h : SpellsPoints points text)
    (start rest : Text) : readPoints start (text ++ '"' :: rest) = .ok (points, rest) := by
  induction h with
  | nil => rw [List.nil_append, readPoints]
  | plain hcontrol hquote hescape _ ih =>
    rw [List.cons_append, readPoints_plain hcontrol hquote hescape, ih]
    rfl
  | short hchar _ ih =>
    rw [List.cons_append, List.cons_append, readPoints_short hchar, ih]
    rfl
  | @unit _ _ _ _ _ _ text hunit halone _ ih =>
    obtain ⟨next, behind, hnext⟩ := List.exists_cons_of_ne_nil
      (List.append_ne_nil_of_right_ne_nil text (List.cons_ne_nil '"' rest))
    simp only [List.cons_append]
    rw [hnext] at ih ⊢
    rw [readPoints_unit hunit, ofUnit_of_hexUnit? hunit, ih]
    · rfl
    · rwa [← hnext, startsLow_append_quote_iff]
  | @pair _ _ _ _ _ _ _ _ char _ _ _ text hhigh hisHigh hlow hisLow hchar _ ih =>
    obtain ⟨next, behind, hnext⟩ := List.exists_cons_of_ne_nil
      (List.append_ne_nil_of_right_ne_nil text (List.cons_ne_nil '"' rest))
    simp only [List.cons_append]
    rw [hnext] at ih ⊢
    rw [readPoints_pair hhigh hisHigh hlow hisLow, ← hchar, Char.ofNat_toNat, ih]
    rfl

theorem spells_of_readPoints {points : List CodePoint} {text : Text}
    (h : readPoints start text = .ok (points, rest)) :
    ∃ inner, text = inner ++ '"' :: rest ∧ SpellsPoints points inner := by
  fun_induction readPoints start text generalizing points with
  | case2 behind =>
    cases h
    exact ⟨[], rfl, .nil⟩
  | case5 a b c d e f g i next behind high hhigh hisHigh low hlow hisLow ih =>
    obtain ⟨inner, rfl, hinner⟩ := exists_of_prepend h
    obtain ⟨text, htext, hspells⟩ := ih hinner
    rw [htext]
    have hchar := CodePoint.toNat_charOfNat (isValidChar_pairCode hisHigh hisLow)
    exact ⟨_, rfl, .pair hhigh hisHigh hlow hisLow hchar hspells⟩
  | case6 a b c d e f g i next behind high hhigh hisHigh low hlow hisLow ih =>
    obtain ⟨inner, rfl, hinner⟩ := exists_of_prepend h
    obtain ⟨text, htext, hspells⟩ := ih hinner
    rw [htext]
    have hcode := code_ofUnit_of_hexUnit? hhigh
    refine ⟨_, rfl, .unit (hcode.symm ▸ hhigh) (fun _ hstarts => ?_) hspells⟩
    obtain ⟨_, _, _, _, other, _, heq, hother, hisOther⟩ :=
      htext ▸ startsLow_append_quote_iff.2 hstarts
    cases heq
    cases hlow.symm.trans hother
    exact hisLow hisOther
  | case7 a b c d e f g i next behind unit hunit hnotHigh ih =>
    obtain ⟨inner, rfl, hinner⟩ := exists_of_prepend h
    obtain ⟨text, htext, hspells⟩ := ih hinner
    rw [htext]
    have hcode := code_ofUnit_of_hexUnit? hunit
    exact ⟨_, rfl, .unit (hcode.symm ▸ hunit) (fun hhigh => absurd (hcode ▸ hhigh) hnotHigh)
      hspells⟩
  | case9 a b c d next behind hother unit hunit ih =>
    obtain ⟨inner, rfl, hinner⟩ := exists_of_prepend h
    obtain ⟨text, htext, hspells⟩ := ih hinner
    rw [htext]
    have hcode := code_ofUnit_of_hexUnit? hunit
    refine ⟨_, rfl, .unit (hcode.symm ▸ hunit) (fun _ hstarts => ?_) hspells⟩
    obtain ⟨e, f, g, i, low, more, rfl, -⟩ := hstarts
    obtain ⟨last, ending, hmore⟩ := List.exists_cons_of_ne_nil
      (List.append_ne_nil_of_right_ne_nil more (List.cons_ne_nil '"' rest))
    simp only [List.cons_append, List.cons.injEq, hmore] at htext
    exact hother e f g i last ending htext.1 htext.2
  | case12 c behind _ _ _ char hchar ih =>
    obtain ⟨inner, rfl, hinner⟩ := exists_of_prepend h
    obtain ⟨text, rfl, hspells⟩ := ih hinner
    exact ⟨_, rfl, .short hchar hspells⟩
  | case15 c behind hquote _ _ _ hlast hescape hcontrol ih =>
    obtain ⟨inner, rfl, hinner⟩ := exists_of_prepend h
    obtain ⟨text, rfl, hspells⟩ := ih hinner
    refine ⟨c :: text, rfl, .plain hcontrol hquote ?_ hspells⟩
    rintro rfl
    cases text with
    | nil => exact hescape _ _ rfl rfl
    | cons => exact hescape _ _ rfl rfl
  | _ => cases h

end Strings

section Numbers

variable {rest : Text}

def NoDigit (rest : Text) : Prop := ∀ c, rest.head? = some c → isDigit c = false

def Ends (rest : Text) : Prop :=
  ∀ c, rest.head? = some c → isDigit c = false ∧ c ≠ '.' ∧ c ≠ 'e' ∧ c ≠ 'E'

theorem Ends.noDigit (h : Ends rest) : NoDigit rest := fun c hc => (h c hc).1

theorem takeWhile_append_eq {p : Char → Bool} {before : Text} (hbefore : ∀ c ∈ before, p c = true)
    (hrest : ∀ c, rest.head? = some c → p c = false) :
    (before ++ rest).takeWhile p = before ∧ (before ++ rest).dropWhile p = rest := by
  rw [List.takeWhile_append_of_pos hbefore, List.dropWhile_append_of_pos hbefore]
  cases rest with
  | nil => simp
  | cons c rest => simp [hrest c rfl]

private theorem isDigits_takeWhile (text : Text) : IsDigits (text.takeWhile isDigit) :=
  fun _ hc => List.mem_takeWhile_imp hc

/-! Each part of a number is cut off as the grammar has it. -/

theorem splitWhole_spec {first : Char} (hfirst : isDigit first = true) (rest : Text) :
    IsWhole (first :: (splitWhole first rest).1) ∧
      (splitWhole first rest).1 ++ (splitWhole first rest).2 = rest := by
  unfold splitWhole
  by_cases hzero : first = '0'
  · rw [if_pos (by simp [hzero]), hzero]
    exact ⟨.zero, rfl⟩
  · rw [if_neg (by simp [hzero])]
    exact ⟨.digits hfirst hzero (isDigits_takeWhile rest), List.takeWhile_append_dropWhile⟩

theorem splitFraction_spec (text : Text) :
    IsFraction (splitFraction text).1 ∧
      (splitFraction text).1 ++ (splitFraction text).2 = text := by
  unfold splitFraction
  split
  · rename_i c rest
    split
    · rename_i hc
      exact ⟨.point hc (isDigits_takeWhile rest), by simp⟩
    · exact ⟨.absent, rfl⟩
  · exact ⟨.absent, rfl⟩

private theorem splitSign_spec (text : Text) :
    ((splitSign text).1 = [] ∨ (splitSign text).1 = ['+'] ∨ (splitSign text).1 = ['-']) ∧
      (splitSign text).1 ++ (splitSign text).2 = text := by
  unfold splitSign
  split <;> simp

theorem splitExponent_spec (text : Text) :
    IsExponent (splitExponent text).1 ∧
      (splitExponent text).1 ++ (splitExponent text).2 = text := by
  unfold splitExponent
  split
  · rename_i c rest
    dsimp only
    split
    · rename_i hpower
      rw [Bool.and_eq_true, Bool.or_eq_true, beq_iff_eq, beq_iff_eq, Bool.not_eq_true',
        List.isEmpty_eq_false_iff] at hpower
      obtain ⟨hsign, happend⟩ := splitSign_spec rest
      have hdigits := isDigits_takeWhile (splitSign rest).2
      obtain ⟨first, digits, htake⟩ := List.exists_cons_of_ne_nil hpower.2
      rw [htake] at hdigits ⊢
      obtain ⟨hfirst, hdigits⟩ := List.forall_mem_cons.1 hdigits
      refine ⟨.power hpower.1 hsign hfirst hdigits, ?_⟩
      rw [← htake]
      simp [happend]
    · exact ⟨.absent, rfl⟩
  · exact ⟨.absent, rfl⟩

theorem splitWhole_append {first : Char} {digits : Text} (h : IsWhole (first :: digits))
    (hrest : NoDigit rest) : splitWhole first (digits ++ rest) = (digits, rest) := by
  unfold splitWhole
  cases h with
  | zero => rfl
  | digits hfirst hzero hdigits =>
    obtain ⟨htake, hdrop⟩ := takeWhile_append_eq hdigits hrest
    rw [if_neg (by simp [hzero]), htake, hdrop]

theorem splitFraction_append {fraction : Text} (h : IsFraction fraction) (hrest : NoDigit rest)
    (hpoint : rest.head? ≠ some '.') : splitFraction (fraction ++ rest) = (fraction, rest) := by
  cases h with
  | absent =>
    rw [List.nil_append]
    unfold splitFraction
    split
    · exact absurd rfl hpoint
    · rfl
  | point hfirst hdigits =>
    obtain ⟨htake, hdrop⟩ := takeWhile_append_eq hdigits hrest
    rw [List.cons_append, List.cons_append, splitFraction, if_pos hfirst, htake, hdrop]

private theorem ne_sign_of_isDigit {c : Char} (h : isDigit c = true) : c ≠ '+' ∧ c ≠ '-' := by
  constructor <;>
  · rintro rfl
    revert h
    decide

private theorem splitSign_append {sign : Text} {first : Char}
    (h : sign = [] ∨ sign = ['+'] ∨ sign = ['-']) (hfirst : isDigit first = true) :
    splitSign (sign ++ first :: rest) = (sign, first :: rest) := by
  obtain ⟨hplus, hminus⟩ := ne_sign_of_isDigit hfirst
  rcases h with rfl | rfl | rfl
  · rw [List.nil_append]
    unfold splitSign
    split <;> simp_all
  · rfl
  · rfl

theorem splitExponent_append {exponent : Text} (h : IsExponent exponent) (hrest : Ends rest) :
    splitExponent (exponent ++ rest) = (exponent, rest) := by
  cases h with
  | absent =>
    cases rest with
    | nil => rfl
    | cons c rest =>
      obtain ⟨-, -, he, hE⟩ := hrest c rfl
      simp [splitExponent, he, hE]
  | @power letter sign first digits hletter hsign hfirst hdigits =>
    have hall : IsDigits (first :: digits) := List.forall_mem_cons.2 ⟨hfirst, hdigits⟩
    obtain ⟨htake, hdrop⟩ := takeWhile_append_eq hall hrest.noDigit
    rw [List.cons_append, List.append_assoc, splitExponent, List.cons_append,
      splitSign_append hsign hfirst]
    dsimp only
    rw [← List.cons_append, htake, hdrop, if_pos]
    · rfl
    · simpa using hletter

end Numbers
end OverrideLint.Json
