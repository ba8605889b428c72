import Mathlib.Data.List.Infix
import Mathlib.Data.List.TakeWhile
import OverrideLint.Suppression

/-! Directives in a text and in its parts. The blanks between the mark of a directive and its
keyword may hold line feeds; at any other line feed a text can be cut, and has the directives of
both parts. -/
namespace OverrideLint

namespace Directive

variable {a b : Text}

def gap (text : Text) (offset : Nat) : Text :=
  (text.drop (offset + 2)).takeWhile Text.isBlank

def keyword (directive : Directive) : String :=
  if directive.nextLine then "override-jsdoc-disable-next-line" else "override-jsdoc-disable-line"

section Reading

private theorem isPrefixOf_append_lineFeed {word : Text} (h : '\n' ∉ word) (a b : Text) :
    word.isPrefixOf (a ++ '\n' :: b) = word.isPrefixOf a := by
  rw [Bool.eq_iff_iff, List.isPrefixOf_iff_prefix, List.isPrefixOf_iff_prefix]
  constructor
  · intro hword
    rcases List.prefix_or_prefix_of_prefix hword (List.prefix_append a _) with hshort | ⟨more, rfl⟩
    · exact hshort
    · -- A word that is longer than `a` would have to hold the line feed behind it.
      rw [List.prefix_append_right_inj] at hword
      cases more with
      | nil => simp
      | cons c more =>
        rw [List.cons_prefix_cons] at hword
        simp [hword.1] at h
  · exact fun hword => hword.trans (List.prefix_append a _)

private theorem afterKeyword?_append_lineFeed {word : String} (h : '\n' ∉ word.toList)
    (a b : Text) :
    afterKeyword? word (a ++ '\n' :: b) = (afterKeyword? word a).map (· ++ '\n' :: b) := by
  unfold afterKeyword?
  rw [isPrefixOf_append_lineFeed h]
  split
  · rename_i hword
    have hlength : word.length ≤ a.length := by
      rw [← String.length_toList]
      exact (List.isPrefixOf_iff_prefix.1 hword).length_le
    have hhead : ((a.drop word.length ++ '\n' :: b).head?.any Text.continuesKeyword) =
        (a.drop word.length).head?.any Text.continuesKeyword := by
      cases a.drop word.length with
      | nil => rfl
      | cons c rest => rfl
    rw [List.drop_append_of_le_length hlength]
    dsimp only
    rw [hhead]
    split <;> rfl
  · rfl

private theorem keyword?_append_lineFeed (a b : Text) :
    keyword? (a ++ '\n' :: b) = (keyword? a).map fun found => (found.1, found.2 ++ '\n' :: b) := by
  unfold keyword?
  rw [afterKeyword?_append_lineFeed (by decide), afterKeyword?_append_lineFeed (by decide)]
  simp only [Option.map_map, Option.map_or]
  rfl

private theorem restOfLine_append_lineFeed (a b : Text) :
    (a ++ '\n' :: b).takeWhile (!isLineBreak ·) = a.takeWhile (!isLineBreak ·) ∧
      (a ++ '\n' :: b).dropWhile (!isLineBreak ·) = a.dropWhile (!isLineBreak ·) ++ '\n' :: b := by
  induction a with
  | nil => exact ⟨rfl, rfl⟩
  | cons c rest ih =>
    by_cases hc : isLineBreak c = true
    · simp [hc]
    · simp [hc, ih]

private theorem read?_of_unmarked {text : Text} (h : ¬ ['/', '/'] <+: text) :
    read? text = none := by
  fun_cases read? text with
  | case1 rest => exact absurd (List.prefix_append ['/', '/'] rest) h
  | case2 => rfl

private theorem read?_append_lineFeed (a b : Text) :
    read? (a ++ '\n' :: b) = (read? a).map (fun found => (found.1, found.2 ++ '\n' :: b)) ∨
      ∃ blanks, a = '/' :: '/' :: blanks ∧ (∀ c ∈ blanks, Text.isBlank c = true) ∧
        (read? (a ++ '\n' :: b)).isSome = true := by
  fun_cases read? a with
  | case1 rest =>
    rw [List.cons_append, List.cons_append, read?, List.dropWhile_append]
    cases hrest : rest.dropWhile Text.isBlank with
    | nil =>
      cases hfound : keyword? (('\n' :: b).dropWhile Text.isBlank) with
      | none => exact .inl (by simp [hfound, show keyword? [] = none from rfl])
      | some found =>
        exact .inr ⟨rest, rfl, List.dropWhile_eq_nil_iff.1 hrest, by simp [hfound]⟩
    | cons c more =>
      left
      rw [List.isEmpty_cons, if_neg Bool.false_ne_true, keyword?_append_lineFeed]
      simp only [Option.map_map, Function.comp_def, restOfLine_append_lineFeed]
  | case2 =>
    rename_i hmark
    have hunmarked : ¬ ['/', '/'] <+: a ++ '\n' :: b := by
      rw [← List.isPrefixOf_iff_prefix, isPrefixOf_append_lineFeed (by decide),
        List.isPrefixOf_iff_prefix]
      rintro ⟨rest, rfl⟩
      exact hmark rest rfl
    exact .inl (read?_of_unmarked hunmarked)

private theorem keyword?_eq_some {text after : Text} {nextLine : Bool}
    (h : keyword? text = some (nextLine, after)) (ids : List String) :
    text = (Directive.keyword ⟨nextLine, ids⟩).toList ++ after := by
  have hsplit {word : String} {rest : Text} (hword : afterKeyword? word text = some rest) :
      text = word.toList ++ rest := by
    unfold afterKeyword? at hword
    split at hword
    · rename_i hprefix
      obtain ⟨more, rfl⟩ := List.isPrefixOf_iff_prefix.1 hprefix
      dsimp only at hword
      split at hword
      · cases hword
      · rw [← Option.some.inj hword, ← String.length_toList, List.drop_left]
    · cases hword
  rcases Option.or_eq_some_iff.1 h with h | ⟨_, h⟩ <;>
    obtain ⟨rest, hrest, heq⟩ := Option.map_eq_some_iff.1 h <;>
    cases heq <;>
    exact hsplit hrest

private theorem read?_eq_some {text after : Text} {directive : Directive}
    (h : read? text = some (directive, after)) :
    ∃ ids, text = '/' :: '/' :: (gap text 0 ++ directive.keyword.toList ++ ids ++ after) ∧
      (∀ c ∈ ids, isLineBreak c = false) ∧ (∀ c, after.head? = some c → isLineBreak c = true) ∧
      directive.ids = readIds ids := by
  unfold read? at h
  split at h
  · rename_i rest
    obtain ⟨⟨nextLine, behind⟩, hfound, heq⟩ := Option.map_eq_some_iff.1 h
    cases heq
    refine ⟨behind.takeWhile (!isLineBreak ·), ?_, ?_, ?_, rfl⟩
    · have hkeyword := keyword?_eq_some hfound (readIds (behind.takeWhile (!isLineBreak ·)))
      rw [List.append_assoc, List.takeWhile_append_dropWhile, List.append_assoc, ← hkeyword]
      simp [gap]
    · intro c hc
      simpa using List.mem_takeWhile_imp hc
    · intro c hc
      have hstop := List.head?_dropWhile_not (!isLineBreak ·) behind
      rw [hc] at hstop
      simpa using hstop
  · cases h

end Reading
section Scan

variable {text after : Text} {c : Char} {directive : Directive}

private theorem scan_nil (offset : Nat) : scan [] offset = [] := by
  rw [scan]

private theorem scan_of_some (h : read? text = some (directive, after)) (offset : Nat) :
    scan text offset =
      (offset, directive) :: scan after (offset + (text.length - after.length)) := by
  cases text with
  | nil => cases h
  | cons c rest =>
    rw [scan]
    split <;> simp_all

private theorem scan_of_none (h : read? (c :: text) = none) (offset : Nat) :
    scan (c :: text) offset = scan text (offset + 1) := by
  rw [scan]
  split <;> simp_all

def shift (n : Nat) (found : Nat × Directive) : Nat × Directive := (n + found.1, found.2)

private theorem shift_shift (m n : Nat) (found : Nat × Directive) :
    shift m (shift n found) = shift (m + n) found := by
  simp [shift, Nat.add_assoc]

private theorem scan_add (text : Text) (n offset : Nat) :
    scan text (n + offset) = (scan text offset).map (shift n) := by
  fun_induction scan text offset with
  | case1 offset => rw [scan_nil, List.map_nil]
  | case2 offset c rest directive after hread ih =>
    rw [scan_of_some hread, List.map_cons, ← ih, Nat.add_assoc]
    rfl
  | case3 offset c rest hread ih => rw [scan_of_none hread, ← ih, Nat.add_assoc]

private theorem scan_eq_map (text : Text) (offset : Nat) :
    scan text offset = (scan text 0).map (shift offset) :=
  scan_add text offset 0

private theorem exists_part_of_read? (h : read? text = some (directive, after)) :
    ∃ part, text = part ++ after ∧ 2 ≤ part.length := by
  obtain ⟨ids, htext, -⟩ := read?_eq_some h
  refine ⟨'/' :: '/' :: (gap text 0 ++ directive.keyword.toList ++ ids), htext, ?_⟩
  simp

private theorem exists_read?_of_mem_scan {found : Nat × Directive} (h : found ∈ scan text 0) :
    ∃ rest, read? (text.drop found.1) = some (found.2, rest) := by
  suffices hall : ∀ text offset, found ∈ scan text offset →
      ∃ n rest, found.1 = offset + n ∧ read? (text.drop n) = some (found.2, rest) by
    obtain ⟨n, rest, hn, hread⟩ := hall text 0 h
    exact ⟨rest, by rw [hn, Nat.zero_add, hread]⟩
  intro text offset hfound
  fun_induction scan text offset with
  | case1 offset => cases hfound
  | case2 offset c rest directive after hread ih =>
    rcases List.mem_cons.1 hfound with rfl | hlater
    · exact ⟨0, after, rfl, hread⟩
    · obtain ⟨n, behind, hn, hmore⟩ := ih hlater
      obtain ⟨part, htext, -⟩ := exists_part_of_read? hread
      refine ⟨part.length + n, behind, ?_, ?_⟩
      · rw [hn, htext, List.length_append, Nat.add_sub_cancel, Nat.add_assoc]
      · rw [htext, ← List.drop_drop, List.drop_left, hmore]
  | case3 offset c rest hread ih =>
    obtain ⟨n, behind, hn, hmore⟩ := ih hfound
    exact ⟨n + 1, behind, by omega, hmore⟩

theorem le_length_of_mem_scan {found : Nat × Directive} (h : found ∈ scan text 0) :
    found.1 + 2 ≤ text.length := by
  obtain ⟨rest, hread⟩ := exists_read?_of_mem_scan h
  obtain ⟨part, hpart, htwo⟩ := exists_part_of_read? hread
  have := congrArg List.length hpart
  simp only [List.length_drop, List.length_append] at this
  omega

/-- What a directive is written as: its mark, blanks, its keyword, and the identifiers up to the
end of the line of the keyword. -/
structure WrittenAt (text : Text) (offset : Nat) (directive : Directive) (ids after : Text) :
    Prop where
  parts : text.drop offset =
    '/' :: '/' :: (gap text offset ++ directive.keyword.toList ++ ids ++ after)
  oneLine : ∀ c ∈ ids, isLineBreak c = false
  lineEnd : ∀ c, after.head? = some c → isLineBreak c = true
  ids_eq : directive.ids = readIds ids

theorem exists_writtenAt {found : Nat × Directive} (h : found ∈ scan text 0) :
    ∃ ids after, WrittenAt text found.1 found.2 ids after := by
  obtain ⟨after, hread⟩ := exists_read?_of_mem_scan h
  obtain ⟨ids, hparts, honeLine, hlineEnd, hids⟩ := read?_eq_some hread
  rw [gap, List.drop_drop] at hparts
  exact ⟨ids, after, hparts, honeLine, hlineEnd, hids⟩

end Scan

section Bridges

def ReachesOver (text : Text) (offset place : Nat) : Prop :=
  offset + 2 ≤ place ∧ place < offset + 2 + (gap text offset).length

instance (text : Text) (offset place : Nat) : Decidable (ReachesOver text offset place) :=
  inferInstanceAs (Decidable (_ ∧ _))

/-- A place between the mark of a directive and its keyword. -/
def Bridges (text : Text) (place : Nat) : Prop :=
  ∃ found ∈ scan text 0, ReachesOver text found.1 place

instance (text : Text) (place : Nat) : Decidable (Bridges text place) :=
  inferInstanceAs (Decidable (∃ found ∈ scan text 0, _))

private theorem reachesOver_append (before text : Text) (offset place : Nat) :
    ReachesOver (before ++ text) (before.length + offset) (before.length + place) ↔
      ReachesOver text offset place := by
  have hgap : gap (before ++ text) (before.length + offset) = gap text offset := by
    rw [gap, Nat.add_assoc, ← List.drop_drop, List.drop_left, gap]
  unfold ReachesOver
  rw [hgap]
  omega

theorem mem_gap_iff {text : Text} {offset : Nat} {c : Char} :
    c ∈ gap text offset ↔ ∃ place, ReachesOver text offset place ∧ text[place]? = some c := by
  have hshown {i : Nat} (hi : i < (gap text offset).length) :
      (gap text offset)[i]? = text[offset + 2 + i]? := by
    obtain ⟨more, hmore⟩ : gap text offset <+: text.drop (offset + 2) := List.takeWhile_prefix _
    rw [← List.getElem?_drop, ← hmore, List.getElem?_append_left hi]
  rw [List.mem_iff_getElem?]
  constructor
  · rintro ⟨i, hi⟩
    have hlt := (List.getElem?_eq_some_iff.1 hi).1
    exact ⟨offset + 2 + i, ⟨by omega, by omega⟩, (hshown hlt).symm.trans hi⟩
  · rintro ⟨place, hover, hplace⟩
    obtain ⟨i, rfl⟩ := Nat.exists_eq_add_of_le hover.1
    exact ⟨i, (hshown (by have := hover.2; omega)).trans hplace⟩

theorem Bridges.behind {before text : Text} {place : Nat}
    (hscan : ∀ found ∈ scan text 0, shift before.length found ∈ scan (before ++ text) 0)
    (h : Bridges text place) : Bridges (before ++ text) (before.length + place) := by
  obtain ⟨found, hfound, hover⟩ := h
  exact ⟨_, hscan found hfound, (reachesOver_append ..).2 hover⟩

private theorem bridges_of_open {blanks : Text} (hblanks : ∀ c ∈ blanks, Text.isBlank c = true)
    {b : Text} (hread : (read? ('/' :: '/' :: blanks ++ '\n' :: b)).isSome = true) :
    Bridges ('/' :: '/' :: blanks ++ '\n' :: b) ('/' :: '/' :: blanks).length := by
  obtain ⟨⟨directive, after⟩, hsome⟩ := Option.isSome_iff_exists.1 hread
  refine ⟨(0, directive), ?_, ?_⟩
  · rw [scan_of_some hsome]
    exact List.mem_cons_self
  · have hfeed : Text.isBlank '\n' = true := rfl
    simp only [ReachesOver, gap, Nat.zero_add, List.cons_append, List.drop_succ_cons,
      List.drop_zero, List.takeWhile_append_of_pos hblanks, List.takeWhile_cons_of_pos hfeed,
      List.length_append, List.length_cons]
    omega

private theorem scan_part_of_some {part after : Text} {directive : Directive}
    (h : read? (part ++ after) = some (directive, after)) :
    scan (part ++ after) 0 = [(0, directive)] ++ (scan after 0).map (shift part.length) := by
  rw [scan_of_some h, scan_eq_map after, List.length_append, Nat.add_sub_cancel, Nat.zero_add]
  rfl

/-- One step of the scan. It finds the same and goes on at the same place whether or not the
text goes on behind a line feed. -/
theorem exists_scan_step {a b : Text} (hne : a ≠ [])
    (h : read? (a ++ '\n' :: b) = (read? a).map fun found => (found.1, found.2 ++ '\n' :: b)) :
    ∃ part after found, a = part ++ after ∧ 0 < part.length ∧
      scan (part ++ after) 0 = found ++ (scan after 0).map (shift part.length) ∧
      scan (part ++ (after ++ '\n' :: b)) 0 =
        found ++ (scan (after ++ '\n' :: b) 0).map (shift part.length) := by
  cases hread : read? a with
  | none =>
    obtain ⟨c, rest, rfl⟩ := List.exists_cons_of_ne_nil hne
    rw [hread] at h
    refine ⟨[c], rest, [], rfl, Nat.one_pos, ?_, ?_⟩
    · exact (scan_of_none hread 0).trans (scan_eq_map rest 1)
    · exact (scan_of_none h 0).trans (scan_eq_map _ 1)
  | some found =>
    obtain ⟨directive, after⟩ := found
    obtain ⟨part, rfl, hpart⟩ := exists_part_of_read? hread
    rw [hread, Option.map_some, List.append_assoc] at h
    exact ⟨part, after, _, rfl, by omega, scan_part_of_some hread, scan_part_of_some h⟩

/-- Cut at a line feed that no directive bridges, a text has the directives of its parts. -/
theorem scan_append_lineFeed {a b : Text} (h : ¬ Bridges (a ++ '\n' :: b) a.length) :
    scan (a ++ '\n' :: b) 0 = scan a 0 ++ (scan b 0).map (shift (a.length + 1)) := by
  induction hlength : a.length using Nat.strong_induction_on generalizing a with
  | _ length ih =>
    subst hlength
    by_cases hne : a = []
    · subst hne
      rw [scan_nil, List.nil_append, List.nil_append, scan_of_none (read?_of_unmarked (by simp))]
      exact scan_eq_map b 1
    · rcases read?_append_lineFeed a b with hsame | ⟨blanks, rfl, hblanks, hsome⟩
      · obtain ⟨part, after, found, rfl, hshrinks, hshort, hlong⟩ := exists_scan_step hne hsame
        rw [List.append_assoc, List.length_append] at h
        have hfree : ¬ Bridges (after ++ '\n' :: b) after.length := by
          intro hbridges
          apply h
          apply hbridges.behind
          intro later hlater
          rw [hlong]
          exact List.mem_append_right _ (List.mem_map_of_mem hlater)
        have hrest := ih after.length (by simpa using hshrinks) hfree rfl
        rw [List.append_assoc, hlong, hshort, hrest]
        simp [Function.comp_def, shift_shift, Nat.add_assoc]
      · exact absurd (bridges_of_open hblanks hsome) h

theorem bridges_append_lineFeed {a b : Text} (h : ¬ Bridges (a ++ '\n' :: b) a.length)
    (place : Nat) :
    Bridges (a ++ '\n' :: b) (a.length + 1 + place) ↔ Bridges b place := by
  have hscan := scan_append_lineFeed h
  have htext : a ++ '\n' :: b = (a ++ ['\n']) ++ b := by simp
  have hlength : (a ++ ['\n']).length = a.length + 1 := by simp
  constructor
  · rintro ⟨found, hfound, hover⟩
    rw [hscan] at hfound
    rcases List.mem_append.1 hfound with hbefore | hbehind
    · -- A directive of the first part that reaches so far bridges the line feed.
      refine absurd ⟨found, ?_, le_length_of_mem_scan hbefore, ?_⟩ h
      · rw [hscan]
        exact List.mem_append_left _ hbefore
      · have := hover.2
        omega
    · obtain ⟨later, hlater, rfl⟩ := List.mem_map.1 hbehind
      rw [htext, ← hlength] at hover
      exact ⟨later, hlater, (reachesOver_append ..).1 hover⟩
  · intro hbridges
    rw [htext, ← hlength]
    apply hbridges.behind
    intro later hlater
    rw [← htext, hscan, hlength]
    exact List.mem_append_right _ (List.mem_map_of_mem hlater)

end Bridges
end Directive

end OverrideLint
