import Mathlib.Data.Prod.Lex
import Mathlib.Data.Set.Function
import Mathlib.Order.Interval.Set.Defs
import OverrideLint.Text.Position

/-! Lines and columns are coordinates of a text. Offsets and the places of its lines, one more
than a line has characters, correspond in the order of reading, and the line at a position
shows the character at the offset. -/
namespace OverrideLint

namespace Position

def key (p : Position) : ℕ ×ₗ ℕ := toLex (p.line, p.column)

theorem key_lt_key {p q : Position} :
    p.key < q.key ↔ p.line < q.line ∨ p.line = q.line ∧ p.column < q.column :=
  Prod.Lex.toLex_lt_toLex

/-- Where a position moves to when a character is put before the text. -/
def behind (c : Char) (p : Position) : Position :=
  if c = '\n' then ⟨p.line + 1, p.column⟩ else if p.line = 1 then ⟨1, p.column + 1⟩ else p

section Behind

variable {c : Char} {p q : Position}

theorem behind_lineFeed (p : Position) : p.behind '\n' = ⟨p.line + 1, p.column⟩ := rfl

theorem behind_first (hc : c ≠ '\n') (column : Nat) :
    behind c ⟨1, column⟩ = ⟨1, column + 1⟩ := by
  rw [behind, if_neg hc, if_pos rfl]

theorem behind_later (hc : c ≠ '\n') (hline : p.line ≠ 1) : p.behind c = p := by
  rw [behind, if_neg hc, if_neg hline]

theorem one_le_line_behind (h : 1 ≤ p.line) : 1 ≤ (p.behind c).line := by
  grind [behind]

theorem key_behind_lt_key_behind (hline : 1 ≤ p.line) (h : p.key < q.key) :
    (p.behind c).key < (q.behind c).key := by
  rw [key_lt_key] at h ⊢
  grind [behind]

theorem first_lt_key_behind (hline : 1 ≤ p.line) (hcolumn : 1 ≤ p.column) :
    (⟨1, 1⟩ : Position).key < (p.behind c).key := by
  rw [key_lt_key]
  grind [behind]

end Behind
end Position

namespace Text

theorem positionOf_cons (c : Char) (rest : Text) (n : Nat) :
    positionOf (c :: rest) (n + 1) = (positionOf rest n).behind c := rfl

theorem positionOf_nil (n : Nat) : positionOf [] n = ⟨1, n + 1⟩ := by
  cases n <;> rfl

theorem one_le_column_positionOf (text : Text) (n : Nat) : 1 ≤ (positionOf text n).column := by
  fun_induction positionOf text n <;> grind

private theorem key_positionOf_lt (text : Text) {a b : Nat} (h : a < b) :
    (positionOf text a).key < (positionOf text b).key := by
  induction text generalizing a b with
  | nil =>
    rw [positionOf_nil, positionOf_nil, Position.key_lt_key]
    exact .inr ⟨rfl, Nat.succ_lt_succ h⟩
  | cons c rest ih =>
    cases b with
    | zero => omega
    | succ b =>
      rw [positionOf_cons]
      cases a with
      | zero =>
        rw [positionOf_zero]
        exact Position.first_lt_key_behind (one_le_line_positionOf rest b)
          (one_le_column_positionOf rest b)
      | succ a =>
        rw [positionOf_cons]
        exact Position.key_behind_lt_key_behind (one_le_line_positionOf rest a) (ih (by omega))

section Lines

variable {c : Char}

theorem lines_lineFeed (rest : Text) : lines ('\n' :: rest) = [] :: lines rest := by
  rw [lines, if_pos rfl]

theorem lines_cons (hc : c ≠ '\n') (rest : Text) :
    lines (c :: rest) = (lines rest).modifyHead (c :: ·) := by
  rw [lines, if_neg hc]
  split
  · rename_i hnone
    exact absurd hnone (lines_ne_nil rest)
  · rename_i hsome
    rw [hsome, List.modifyHead_cons]

private theorem lines_eq_splitOn (text : Text) : lines text = text.splitOn '\n' := by
  rw [List.splitOn_eq_splitOnP]
  induction text with
  | nil => rfl
  | cons c rest ih =>
    rw [List.splitOnP_cons_eq_if_modifyHead, ← ih]
    by_cases hc : c = '\n'
    · rw [hc, lines_lineFeed, if_pos (beq_self_eq_true _)]
    · rw [lines_cons hc, if_neg (by simpa using hc)]

private theorem length_lines (text : Text) : (lines text).length = 1 + text.count '\n' := by
  induction text with
  | nil => rfl
  | cons c rest ih =>
    by_cases hc : c = '\n'
    · rw [hc, lines_lineFeed, List.length_cons, ih, List.count_cons_self]
      omega
    · rw [lines_cons hc, List.length_modifyHead, ih, List.count_cons_of_ne hc]

theorem lineText_lineFeed_one (rest : Text) : lineText ('\n' :: rest) 1 = [] := by
  rw [lineText, lines_lineFeed]
  rfl

theorem lineText_lineFeed (rest : Text) (n : Nat) :
    lineText ('\n' :: rest) (n + 2) = lineText rest (n + 1) := by
  rw [lineText, lines_lineFeed, List.getElem?_cons_succ, lineText]

theorem lineText_cons_one (hc : c ≠ '\n') (rest : Text) :
    lineText (c :: rest) 1 = c :: lineText rest 1 := by
  obtain ⟨first, following, hlines⟩ := List.exists_cons_of_ne_nil (lines_ne_nil rest)
  rw [lineText, lineText, lines_cons hc, hlines]
  rfl

theorem lineText_cons (hc : c ≠ '\n') (rest : Text) (n : Nat) :
    lineText (c :: rest) (n + 2) = lineText rest (n + 2) := by
  obtain ⟨first, following, hlines⟩ := List.exists_cons_of_ne_nil (lines_ne_nil rest)
  rw [lineText, lineText, lines_cons hc, hlines]
  rfl

/-- Behind a character put before the text, a line and a column on it grow by one together or
stay as they are. -/
theorem lineText_behind (c : Char) (rest : Text) {p : Position} (hline : 1 ≤ p.line) :
    lineText (c :: rest) (p.behind c).line = c :: lineText rest p.line ∧
        (p.behind c).column = p.column + 1 ∨
      lineText (c :: rest) (p.behind c).line = lineText rest p.line ∧
        (p.behind c).column = p.column := by
  obtain ⟨line, column⟩ := p
  by_cases hc : c = '\n'
  · subst hc
    match line, hline with
    | n + 1, _ => exact .inr ⟨lineText_lineFeed rest n, rfl⟩
  · match line, hline with
    | 1, _ =>
      rw [Position.behind_first hc]
      exact .inl ⟨lineText_cons_one hc rest, rfl⟩
    | n + 2, _ =>
      rw [Position.behind_later hc (by simp)]
      exact .inr ⟨lineText_cons hc rest n, rfl⟩

private theorem map_lineText (text : Text) :
    (List.range (1 + text.count '\n')).map (fun n => lineText text (n + 1)) = lines text := by
  apply List.ext_getElem
  · rw [List.length_map, List.length_range, length_lines]
  · intro n _ hn
    rw [List.getElem_map, List.getElem_range, lineText, List.getElem?_eq_getElem hn,
      Option.getD_some]

end Lines

/-- The places of a text: on each line one before every character, and one behind the last. -/
structure HasPosition (text : Text) (p : Position) : Prop where
  one_le_line : 1 ≤ p.line
  line_le : p.line ≤ 1 + text.count '\n'
  one_le_column : 1 ≤ p.column
  column_le : p.column ≤ (lineText text p.line).length + 1

section Positions

variable {text : Text} {p : Position} {c : Char} {rest : Text}

private theorem hasPosition_first (text : Text) : HasPosition text ⟨1, 1⟩ where
  one_le_line := Nat.le_refl _
  line_le := Nat.le_add_right ..
  one_le_column := Nat.le_refl _
  column_le := Nat.le_add_left ..

private theorem line_behind_le_iff (c : Char) (rest : Text) (p : Position) (k : Nat) :
    (p.behind c).line ≤ k + (c :: rest).count '\n' ↔ p.line ≤ k + rest.count '\n' := by
  by_cases hc : c = '\n'
  · rw [hc, Position.behind_lineFeed, List.count_cons_self]
    dsimp only
    omega
  · rw [List.count_cons_of_ne hc]
    grind [Position.behind]

theorem HasPosition.behind (h : HasPosition rest p) (c : Char) :
    HasPosition (c :: rest) (p.behind c) := by
  have hline : 1 ≤ (p.behind c).line := Position.one_le_line_behind h.one_le_line
  have hlast := (line_behind_le_iff c rest p 1).2 h.line_le
  have hcolumn := h.one_le_column
  have hend := h.column_le
  rcases lineText_behind c rest h.one_le_line with ⟨hlonger, hshift⟩ | ⟨hsame, hkept⟩
  · refine ⟨hline, hlast, by omega, ?_⟩
    rw [hlonger, hshift, List.length_cons]
    omega
  · refine ⟨hline, hlast, by omega, ?_⟩
    rwa [hsame, hkept]

theorem HasPosition.eq_first_or_behind (h : HasPosition (c :: rest) p) :
    p = ⟨1, 1⟩ ∨ ∃ q, HasPosition rest q ∧ p = q.behind c := by
  obtain ⟨line, column⟩ := p
  obtain ⟨hline, hlast, hcolumn, hend⟩ := h
  dsimp only at *
  by_cases hc : c = '\n'
  · subst hc
    match line, hline with
    | 1, _ =>
      rw [lineText_lineFeed_one, List.length_nil] at hend
      exact .inl (by rw [Nat.le_antisymm hend hcolumn])
    | n + 2, _ =>
      rw [List.count_cons_self] at hlast
      rw [lineText_lineFeed] at hend
      exact .inr ⟨⟨n + 1, column⟩, ⟨by simp, by dsimp only; omega, hcolumn, hend⟩, rfl⟩
  · match line, hline with
    | 1, _ =>
      match column, hcolumn with
      | 1, _ => exact .inl rfl
      | n + 2, _ =>
        rw [lineText_cons_one hc, List.length_cons] at hend
        refine .inr ⟨⟨1, n + 1⟩, ⟨Nat.le_refl _, Nat.le_add_right .., by simp, ?_⟩, ?_⟩
        · dsimp only
          omega
        · rw [Position.behind_first hc]
    | n + 2, _ =>
      rw [List.count_cons_of_ne hc] at hlast
      rw [lineText_cons hc] at hend
      refine .inr ⟨⟨n + 2, column⟩, ⟨by simp, hlast, hcolumn, hend⟩, ?_⟩
      rw [Position.behind_later hc (by simp)]

theorem HasPosition.eq_first (h : HasPosition [] p) : p = ⟨1, 1⟩ := by
  obtain ⟨line, column⟩ := p
  obtain ⟨hline, hlast, hcolumn, hend⟩ := h
  obtain rfl : line = 1 := Nat.le_antisymm hlast hline
  obtain rfl : column = 1 := Nat.le_antisymm hend hcolumn
  rfl

theorem hasPosition_positionOf {n : Nat} (h : n ≤ text.length) :
    HasPosition text (positionOf text n) := by
  induction text generalizing n with
  | nil =>
    obtain rfl : n = 0 := Nat.le_zero.1 h
    exact hasPosition_first []
  | cons c rest ih =>
    cases n with
    | zero =>
      rw [positionOf_zero]
      exact hasPosition_first _
    | succ n => exact (ih (Nat.le_of_succ_le_succ h)).behind c

theorem HasPosition.exists_offset (h : HasPosition text p) :
    ∃ n ≤ text.length, positionOf text n = p := by
  induction text generalizing p with
  | nil => exact ⟨0, Nat.le_refl _, h.eq_first.symm⟩
  | cons c rest ih =>
    rcases h.eq_first_or_behind with rfl | ⟨q, hq, rfl⟩
    · exact ⟨0, Nat.zero_le _, positionOf_zero _⟩
    · obtain ⟨n, hn, rfl⟩ := ih hq
      exact ⟨n + 1, Nat.succ_le_succ hn, rfl⟩

end Positions

section Characters

variable {text : Text}

private def endedLine (text : Text) (line : Nat) : Text :=
  lineText text line ++ if line ≤ text.count '\n' then ['\n'] else []

private theorem endedLine_behind (c : Char) (rest : Text) {p : Position} (hline : 1 ≤ p.line) :
    endedLine (c :: rest) (p.behind c).line = c :: endedLine rest p.line ∧
        (p.behind c).column = p.column + 1 ∨
      endedLine (c :: rest) (p.behind c).line = endedLine rest p.line ∧
        (p.behind c).column = p.column := by
  have hlast := line_behind_le_iff c rest p 0
  simp only [Nat.zero_add] at hlast
  simp only [endedLine, hlast]
  rcases lineText_behind c rest hline with ⟨hlonger, hshift⟩ | ⟨hsame, hcolumn⟩
  · exact .inl ⟨by rw [hlonger, List.cons_append], hshift⟩
  · exact .inr ⟨by rw [hsame], hcolumn⟩

private theorem head?_endedLine_cons (c : Char) (rest : Text) :
    (endedLine (c :: rest) 1)[0]? = some c := by
  unfold endedLine
  by_cases hc : c = '\n'
  · rw [hc, lineText_lineFeed_one, List.count_cons_self, if_pos (Nat.le_add_left ..)]
    rfl
  · rw [lineText_cons_one hc]
    rfl

private theorem getElem?_endedLine {n : Nat} (h : n ≤ text.length) :
    (endedLine text (positionOf text n).line)[(positionOf text n).column - 1]? = text[n]? := by
  induction text generalizing n with
  | nil =>
    obtain rfl : n = 0 := Nat.le_zero.1 h
    rfl
  | cons c rest ih =>
    cases n with
    | zero =>
      rw [positionOf_zero]
      exact head?_endedLine_cons c rest
    | succ n =>
      rw [List.getElem?_cons_succ, ← ih (Nat.le_of_succ_le_succ h), positionOf_cons]
      obtain ⟨m, hm⟩ := Nat.exists_eq_add_of_le' (one_le_column_positionOf rest n)
      rcases endedLine_behind c rest (one_le_line_positionOf rest n) with
        ⟨hlonger, hshift⟩ | ⟨hsame, hcolumn⟩
      · rw [hlonger, hshift, hm, Nat.add_sub_cancel, Nat.add_sub_cancel, List.getElem?_cons_succ]
      · rw [hsame, hcolumn]

end Characters

/-- Lines and columns are coordinates of a text. The offsets up to its end correspond one to
one to its places, in the order of reading; the text is its lines, joined by line feeds; and at
each offset stands the character that its position shows on its line or, behind the last one,
the line feed that ends the line, or the end of the text. -/
theorem positionOf_coordinates (text : Text) :
    StrictMonoOn (fun offset => (positionOf text offset).key) (Set.Iic text.length) ∧
      Set.BijOn (positionOf text) (Set.Iic text.length) {p | HasPosition text p} ∧
      ['\n'].intercalate
        ((List.range (1 + text.count '\n')).map fun n => lineText text (n + 1)) = text ∧
      ∀ offset p, offset ≤ text.length → positionOf text offset = p →
        (p.column ≤ (lineText text p.line).length →
          text[offset]? = (lineText text p.line)[p.column - 1]?) ∧
        (p.column = (lineText text p.line).length + 1 →
          if p.line ≤ text.count '\n' then text[offset]? = some '\n' else offset = text.length) := by
  have hmono : StrictMonoOn (fun offset => (positionOf text offset).key) (Set.Iic text.length) :=
    fun _ _ _ _ => key_positionOf_lt text
  refine ⟨hmono, ⟨?_, ?_, ?_⟩, ?_, ?_⟩
  · intro offset hle
    exact hasPosition_positionOf hle
  · intro a ha b hb heq
    exact hmono.injOn ha hb (congrArg Position.key heq)
  · intro p hp
    exact HasPosition.exists_offset hp
  · rw [map_lineText, lines_eq_splitOn, List.intercalate_splitOn]
  · rintro offset _ hle rfl
    have hshown := getElem?_endedLine hle
    have hcolumn := one_le_column_positionOf text offset
    refine ⟨fun hon => ?_, fun hend => ?_⟩
    · rw [← hshown, endedLine, List.getElem?_append_left (by omega)]
    · rw [hend, endedLine, Nat.add_sub_cancel, List.getElem?_append_right (Nat.le_refl _),
        Nat.sub_self] at hshown
      split
      · rename_i hlast
        rw [if_pos hlast] at hshown
        exact hshown.symm
      · rename_i hlast
        rw [if_neg hlast] at hshown
        exact Nat.le_antisymm hle (List.getElem?_eq_none_iff.1 hshown.symm)

example : [2, 3, 6, 9].map (positionOf "ab\ncd\n\nef".toList) =
    [⟨1, 3⟩, ⟨2, 1⟩, ⟨3, 1⟩, ⟨4, 3⟩] := by decide

end Text
end OverrideLint
