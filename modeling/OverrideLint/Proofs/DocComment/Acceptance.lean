import OverrideLint.Proofs.DocComment.Lines

/-! Which texts are documentation comments. Reading stops nowhere but at a closing
delimiter or at a carriage return on its own, whatever tags, leaders and stray at-signs
there are before it. -/
namespace OverrideLint.DocComment

def fromStop : Text → Text
  | [] => []
  | c :: rest => if stops c rest then c :: rest else fromStop rest

section Reading

private theorem stops_eq_false_of_ne {c : Char} (hstar : c ≠ '*') (hreturn : c ≠ '\r')
    (rest : Text) :
    stops c rest = false := by
  simp [stops, hstar, hreturn]

private theorem fromStop_cons_of_ne {c : Char} (hstar : c ≠ '*') (hreturn : c ≠ '\r')
    (rest : Text) :
    fromStop (c :: rest) = fromStop rest := by
  rw [fromStop, stops_eq_false_of_ne hstar hreturn, if_neg Bool.false_ne_true]

theorem ne_of_isNameChar {c other : Char} (hc : isNameChar c = true)
    (hother : isNameChar other = false) : c ≠ other := by
  rintro rfl
  exact absurd (hc.symm.trans hother) (by decide)

theorem isNameChar_of_isNameStart {c : Char} (h : isNameStart c = true) : isNameChar c = true := by
  simp only [isNameStart, Bool.or_eq_true, beq_iff_eq] at h
  rcases h with (halpha | rfl) | rfl
  · simp [isNameChar, Text.isWord, Text.isAsciiAlphanumeric, Char.isAlphanum, halpha]
  · decide
  · decide

private theorem fromStop_cons_of_isNameChar {c : Char} (hc : isNameChar c = true) (rest : Text) :
    fromStop (c :: rest) = fromStop rest :=
  fromStop_cons_of_ne (ne_of_isNameChar hc (by decide)) (ne_of_isNameChar hc (by decide)) rest

private theorem fromStop_dropWhile_isNameChar (text : Text) :
    fromStop (text.dropWhile isNameChar) = fromStop text := by
  induction text with
  | nil => rfl
  | cons c rest ih =>
    by_cases hc : isNameChar c = true
    · rw [List.dropWhile_cons_of_pos hc, ih, fromStop_cons_of_isNameChar hc]
    · rw [List.dropWhile_cons_of_neg hc]

private theorem fromStop_splitRun (afterSpace : Bool) (text : Text) :
    fromStop (splitRun afterSpace text).2 = fromStop text := by
  fun_induction splitRun afterSpace text with
  | case1 => rfl
  | case2 => rfl
  | case3 afterSpace c rest hc more ih =>
    rw [fromStop, stops_of_mem_run hc, if_neg Bool.false_ne_true]
    exact ih

private theorem fromStop_of_readTag {text name run after : Text}
    (h : readTag text = some (name, run, after)) : fromStop after = fromStop text := by
  unfold readTag at h
  split at h
  · rename_i c rest
    split at h
    · rename_i hstart
      cases h
      rw [fromStop_splitRun, fromStop_dropWhile_isNameChar,
        fromStop_cons_of_ne (by decide) (by decide),
        fromStop_cons_of_isNameChar (isNameChar_of_isNameStart hstart)]
    · cases h
  · cases h

theorem snd_scan (cursor : Cursor) (text : Text) : (scan cursor text).2 = fromStop text := by
  fun_induction scan cursor text with
  | case1 cursor text name run after hread more ih =>
    exact ih.trans (fromStop_of_readTag (Cursor.readTag_of_readTag? hread).2)
  | case2 cursor hread => rfl
  | case3 cursor c rest hread hstops => rw [fromStop, if_pos hstops]
  | case4 cursor c rest hread hstops more ih => rw [fromStop, if_neg hstops, ← ih]

private theorem exists_parseTags_iff_fromStop {text : Text} :
    (∃ tags, parseTags text = .ok tags) ↔
      ∃ body, text = '/' :: '*' :: '*' :: body ∧ fromStop body = ['*', '/'] := by
  simp only [parseTags_eq_ok_iff]
  constructor
  · rintro ⟨tags, body, items, htext, hscan, -⟩
    exact ⟨body, htext, by rw [← snd_scan ⟨.indent, false⟩, hscan]⟩
  · rintro ⟨body, htext, hstop⟩
    rw [← snd_scan ⟨.indent, false⟩] at hstop
    exact ⟨_, body, (scan ⟨.indent, false⟩ body).1, htext, Prod.ext rfl hstop, rfl⟩

end Reading

section Places

def ClosesAt (text : Text) (offset : Nat) : Prop :=
  text[offset]? = some '*' ∧ text[offset + 1]? = some '/'

def LoneReturnAt (text : Text) (offset : Nat) : Prop :=
  text[offset]? = some '\r' ∧ text[offset + 1]? ≠ some '\n'

def StopsAt (text : Text) (offset : Nat) : Prop := ClosesAt text offset ∨ LoneReturnAt text offset

private theorem stopsAt_zero {c : Char} {rest : Text} : StopsAt
    (c :: rest) 0 ↔ stops c rest = true := by
  simp [StopsAt, ClosesAt, LoneReturnAt, stops, List.head?_eq_getElem?]

private theorem stopsAt_succ {c : Char} {rest : Text} {offset : Nat} :
    StopsAt (c :: rest) (offset + 1) ↔ StopsAt rest offset := by
  simp only [StopsAt, ClosesAt, LoneReturnAt, List.getElem?_cons_succ]

theorem fromStop_spec (text : Text) :
    (fromStop text = [] ∧ ∀ offset, ¬ StopsAt text offset) ∨
      ∃ offset, StopsAt text offset ∧ (∀ earlier, StopsAt text earlier → offset ≤ earlier) ∧
        fromStop text = text.drop offset := by
  induction text with
  | nil => exact .inl ⟨rfl, by simp [StopsAt, ClosesAt, LoneReturnAt]⟩
  | cons c rest ih =>
    by_cases hstops : stops c rest = true
    · refine .inr ⟨0, stopsAt_zero.2 hstops, fun _ _ => Nat.zero_le _, ?_⟩
      rw [fromStop, if_pos hstops, List.drop_zero]
    · rw [fromStop, if_neg hstops]
      rcases ih with ⟨hnil, hnone⟩ | ⟨offset, hstop, hfirst, hdrop⟩
      · refine .inl ⟨hnil, ?_⟩
        intro offset hoffset
        cases offset with
        | zero => exact hstops (stopsAt_zero.1 hoffset)
        | succ offset => exact hnone offset (stopsAt_succ.1 hoffset)
      · refine .inr ⟨offset + 1, stopsAt_succ.2 hstop, ?_, hdrop⟩
        intro earlier hearlier
        cases earlier with
        | zero => exact absurd (stopsAt_zero.1 hearlier) hstops
        | succ earlier => exact Nat.succ_le_succ (hfirst earlier (stopsAt_succ.1 hearlier))

end Places

/-- A text opens with two stars, is closed for the first time at its very end, and has no
carriage return on its own. -/
structure WellFormed (text : Text) : Prop where
  opened : ['/', '*', '*'] <+: text
  closed : ∃ offset, 3 ≤ offset ∧ ClosesAt text offset ∧ offset + 2 = text.length ∧
    ∀ earlier, 3 ≤ earlier → ClosesAt text earlier → offset ≤ earlier
  returns : ∀ offset, text[offset]? = some '\r' → text[offset + 1]? = some '\n'

private theorem drop_eq_close {body : Text} {offset : Nat} (hcloses : ClosesAt body offset)
    (hlength : offset + 2 = body.length) : body.drop offset = ['*', '/'] := by
  apply List.ext_getElem?
  intro k
  rw [List.getElem?_drop]
  match k with
  | 0 => exact hcloses.1
  | 1 => exact hcloses.2
  | k + 2 => rw [List.getElem?_eq_none (by omega), List.getElem?_eq_none (by simp)]

private theorem closesAt_of_drop_eq {body : Text} {offset : Nat}
    (h : body.drop offset = ['*', '/']) :
    ClosesAt body offset ∧ offset + 2 = body.length := by
  have hlength := congrArg List.length h
  simp only [List.length_drop, List.length_cons, List.length_nil] at hlength
  have hchar (k : Nat) : body[offset + k]? = ['*', '/'][k]? := by rw [← h, List.getElem?_drop]
  exact ⟨⟨hchar 0, hchar 1⟩, by omega⟩

private theorem fromStop_eq_close_iff {body : Text} :
    fromStop body = ['*', '/'] ↔
      (∃ offset, ClosesAt body offset ∧ offset + 2 = body.length ∧
        ∀ earlier, ClosesAt body earlier → offset ≤ earlier) ∧
      ∀ offset, body[offset]? = some '\r' → body[offset + 1]? = some '\n' := by
  constructor
  · intro h
    rcases fromStop_spec body with ⟨hnil, -⟩ | ⟨offset, -, hfirst, hdrop⟩
    · cases h.symm.trans hnil
    have hend := hdrop.symm.trans h
    obtain ⟨hcloses, hlength⟩ := closesAt_of_drop_eq hend
    refine ⟨⟨offset, hcloses, hlength, fun earlier h => hfirst earlier (.inl h)⟩, ?_⟩
    intro place hreturn
    apply Decidable.byContradiction
    intro hlone
    obtain ⟨k, rfl⟩ := Nat.exists_eq_add_of_le (hfirst place (.inr ⟨hreturn, hlone⟩))
    rw [← List.getElem?_drop, hend] at hreturn
    exact absurd (List.mem_of_getElem? hreturn) (by decide)
  · rintro ⟨⟨offset, hcloses, hlength, hfirst⟩, hreturns⟩
    rcases fromStop_spec body with ⟨-, hnone⟩ | ⟨stop, hstop, hearliest, hdrop⟩
    · exact absurd (.inl hcloses) (hnone offset)
    have hle : stop ≤ offset := hearliest offset (.inl hcloses)
    have hge : offset ≤ stop := by
      rcases hstop with hstop | ⟨hreturn, hlone⟩
      · exact hfirst stop hstop
      · exact absurd (hreturns stop hreturn) hlone
    rw [hdrop, Nat.le_antisymm hle hge]
    exact drop_eq_close hcloses hlength

theorem closesAt_opened {body : Text} {offset : Nat} :
    ClosesAt ('/' :: '*' :: '*' :: body) (offset + 3) ↔ ClosesAt body offset := by
  simp only [ClosesAt, List.getElem?_cons_succ]

private theorem wellFormed_opened_iff {body : Text} :
    WellFormed ('/' :: '*' :: '*' :: body) ↔ fromStop body = ['*', '/'] := by
  rw [fromStop_eq_close_iff]
  constructor
  · rintro ⟨-, ⟨offset, hoffset, hcloses, hlength, hfirst⟩, hreturns⟩
    obtain ⟨offset, rfl⟩ := Nat.exists_eq_add_of_le' hoffset
    refine ⟨⟨offset, closesAt_opened.1 hcloses, ?_, ?_⟩, fun place => hreturns (place + 3)⟩
    · simp only [List.length_cons] at hlength
      omega
    · intro earlier hearlier
      have := hfirst (earlier + 3) (Nat.le_add_left 3 earlier) (closesAt_opened.2 hearlier)
      omega
  · rintro ⟨⟨offset, hcloses, hlength, hfirst⟩, hreturns⟩
    refine ⟨⟨body, rfl⟩,
      ⟨offset + 3, Nat.le_add_left 3 offset, closesAt_opened.2 hcloses, ?_, ?_⟩, ?_⟩
    · simp only [List.length_cons]
      omega
    · intro earlier hge hearlier
      obtain ⟨earlier, rfl⟩ := Nat.exists_eq_add_of_le' hge
      have := hfirst earlier (closesAt_opened.1 hearlier)
      omega
    · intro place hreturn
      match place with
      | 0 | 1 | 2 => cases hreturn
      | place + 3 => exact hreturns place hreturn

/-- Reading succeeds on exactly the well-formed texts, and fails on every other one with
a problem of the comment. -/
theorem parseTags_succeeds_iff (text : Text) :
    ((∃ tags, parseTags text = .ok tags) ↔ WellFormed text) ∧
      ((∃ error, parseTags text = .error error ∧ (error.problem text).code = .docCommentSyntax) ↔
        ¬ WellFormed text) := by
  have hiff : (∃ tags, parseTags text = .ok tags) ↔ WellFormed text := by
    rw [exists_parseTags_iff_fromStop]
    constructor
    · rintro ⟨body, rfl, hstop⟩
      exact wellFormed_opened_iff.2 hstop
    · intro h
      obtain ⟨body, rfl⟩ := h.opened
      exact ⟨body, rfl, wellFormed_opened_iff.1 h⟩
  refine ⟨hiff, ?_⟩
  rw [← hiff]
  cases parseTags text with
  | ok tags => simp
  | error error => simp [SyntaxError.problem, Problem.docComment]

end OverrideLint.DocComment
