import Mathlib.Data.List.Basic
import OverrideLint.Proofs.DocComment.Attempts

/-! Where a text stops being a documentation comment. The place that an error names is
where the grammar's rules fail for the last time, or where they match and leave text over;
it is also the first place where a comment can stop at all, and no stray at-sign, leader or
tag moves it. -/
namespace OverrideLint.DocComment

section Grammar

/-- Where the attempt to match a whole text goes wrong: at the last of its failures, or where
it stops if there is more text. -/
inductive WrongAt (whole : Text) : Option Nat → List Failure → Nat → Prop
  | failed {failures : List Failure} (production : Production) {offset : Nat}
      (hmem : (production, offset) ∈ failures)
      (hlast : ∀ failure ∈ failures, failure.2 ≤ offset) : WrongAt whole none failures offset
  | leftOver {stop : Nat} (failures : List Failure) (hlt : stop < whole.length) :
    WrongAt whole (some stop) failures stop

private theorem wrongAt_unopened {text : Text} (h : ¬ ['/', '*', '*'] <+: text) :
    ∃ failures, Attempt text (.named .comment) 0 none failures ∧
      WrongAt text none failures 0 := by
  have hopening : Attempt text (.terminal (.literal ['/', '*', '*'])) 0 none [] := by
    have hattempt : Attempt text _ 0 _ _ := .terminal (.literal ['/', '*', '*']) 0
    rwa [List.drop_zero, Terminal.literal, if_neg (by
      rwa [List.isPrefixOf_iff_prefix])] at hattempt
  refine ⟨_, .failed (.sequenceFailed _ (.failed hopening)),
    .failed .comment (by simp) ?_⟩
  simp

private theorem wrongAt_unclosed {body : Text} (h : ¬ ['*', '/'] <+: (readLines false body).2) :
    ∃ failures, Attempt ('/' :: '*' :: '*' :: body) (.named .comment) 0 none failures ∧
      WrongAt ('/' :: '*' :: '*' :: body) none failures
        (3 + ((readLines false body).1.flatMap Line.render).length) := by
  obtain ⟨⟨-, before, hopening, hbefore⟩, hle, inside, hlines, hinside⟩ := reaches_opened body
  have hclosing : Attempt ('/' :: '*' :: '*' :: body) (.terminal (.literal ['*', '/']))
      (3 + ((readLines false body).1.flatMap Line.render).length) none [] := by
    have hattempt : Attempt ('/' :: '*' :: '*' :: body) _ _ _ _ := .terminal (.literal ['*', '/'])
      (3 + ((readLines false body).1.flatMap Line.render).length)
    rwa [(stands_lines body).drop_eq, Terminal.literal, if_neg (by
      rwa [List.isPrefixOf_iff_prefix])] at hattempt
  refine ⟨_, .failed (.sequence hopening (.sequence hlines (.failed hclosing))),
    .failed .closing (by simp) ?_⟩
  simp only [List.mem_append, List.mem_singleton, List.not_mem_nil, false_or]
  rintro failure ((hmem | hmem | rfl) | rfl)
  · exact Nat.le_trans (hbefore failure hmem) hle
  · exact hinside failure hmem
  · exact Nat.le_refl _
  · exact Nat.zero_le _

private theorem wrongAt_closed {body later : Text}
    (h : (readLines false body).2 = '*' :: '/' :: later) (hlater : later ≠ []) :
    ∃ stop failures, Attempt ('/' :: '*' :: '*' :: body) (.named .comment) 0 stop failures ∧
      WrongAt ('/' :: '*' :: '*' :: body) stop failures
        (3 + ((readLines false body).1.flatMap Line.render).length + 2) := by
  obtain ⟨hopening, hlines⟩ := reaches_opened body
  have hstands : Stands ('/' :: '*' :: '*' :: body)
      (3 + ((readLines false body).1.flatMap Line.render).length) (['*', '/'] ++ later) :=
    Eq.subst h (stands_lines body)
  have hclosing : Reaches ('/' :: '*' :: '*' :: body) (.named .closing)
      (3 + ((readLines false body).1.flatMap Line.render).length)
      (3 + ((readLines false body).1.flatMap Line.render).length + 2) :=
    .named (reaches_terminal hstands (literal_append _ _ _))
  have hcomment : Reaches ('/' :: '*' :: '*' :: body) (.named .comment) 0 _ :=
    .named (hopening.sequence (hlines.sequence hclosing))
  obtain ⟨-, failures, hattempt, -⟩ := hcomment
  refine ⟨_, failures, hattempt, .leftOver failures ?_⟩
  have hpos := List.length_pos_iff.2 hlater
  have hlength := hstands.advance.length_eq
  simp only [List.length_cons, List.length_nil] at hlength ⊢
  omega

private theorem parse_eq_error {text : Text} {error : SyntaxError} (h : parse text = .error error) :
    (¬ ['/', '*', '*'] <+: text ∧ error.offset = 0) ∨
      ∃ body, text = '/' :: '*' :: '*' :: body ∧
        ((∃ later, later ≠ [] ∧ (readLines false body).2 = '*' :: '/' :: later ∧
            error.offset = 3 + (body.length - later.length)) ∨
          ¬ ['*', '/'] <+: (readLines false body).2 ∧
            error.offset = 3 + (body.length - (readLines false body).2.length)) := by
  unfold parse at h
  split at h
  · rename_i body
    refine .inr ⟨body, rfl, ?_⟩
    split at h
    · cases h
    · rename_i lines later hlater hlines
      cases h
      refine .inl ⟨later, ?_, congrArg Prod.snd hlines, rfl⟩
      rintro rfl
      exact hlater rfl
    · rename_i lines rest hclosed hlater hlines
      cases h
      rw [hlines]
      refine .inr ⟨?_, rfl⟩
      rintro ⟨later, hprefix⟩
      exact hlater later hprefix.symm
  · rename_i hopened
    cases h
    refine .inl ⟨?_, rfl⟩
    rintro ⟨body, rfl⟩
    exact hopened body rfl

/-- The place of an error is where the attempt to match the text as a comment goes wrong. -/
theorem exists_attempt_of_parse {text : Text} {error : SyntaxError}
    (h : parse text = .error error) :
    ∃ stop failures, Attempt text (.named .comment) 0 stop failures ∧
      WrongAt text stop failures error.offset := by
  rcases parse_eq_error h with ⟨hopened, hoffset⟩ | ⟨body, rfl, hstop⟩
  · obtain ⟨failures, hattempt, hwrong⟩ := wrongAt_unopened hopened
    exact ⟨none, failures, hattempt, hoffset ▸ hwrong⟩
  have hlength := congrArg List.length (readLines_append false body)
  rw [List.length_append] at hlength
  rcases hstop with ⟨later, hlater, hrest, hoffset⟩ | ⟨hclosed, hoffset⟩
  · have hplace : error.offset =
        3 + ((readLines false body).1.flatMap Line.render).length + 2 := by
      rw [hrest, List.length_cons, List.length_cons] at hlength
      omega
    rw [hplace]
    exact wrongAt_closed hrest hlater
  · have hplace : error.offset =
        3 + ((readLines false body).1.flatMap Line.render).length := by omega
    obtain ⟨failures, hattempt, hwrong⟩ := wrongAt_unclosed hclosed
    exact ⟨none, failures, hattempt, hplace ▸ hwrong⟩

end Grammar

section Scanning

/-- Where a text fails to be a comment: at its start if it is not opened, at a carriage
return on its own, behind a closing delimiter that is not its end, or at its end. -/
inductive FailsAt (text : Text) : Nat → Prop
  | unopened (hopened : ¬ ['/', '*', '*'] <+: text) : FailsAt text 0
  | loneReturn (hopened : ['/', '*', '*'] <+: text) {place : Nat}
      (hfirst : FirstFrom (StopsAt text) 3 place) (hreturn : LoneReturnAt text place) :
      FailsAt text place
  | closed (hopened : ['/', '*', '*'] <+: text) {place : Nat}
      (hfirst : FirstFrom (StopsAt text) 3 place) (hcloses : ClosesAt text place)
      (hbefore : place + 2 < text.length) : FailsAt text (place + 2)
  | unclosed (hopened : ['/', '*', '*'] <+: text)
      (hnone : ∀ place, 3 ≤ place → ¬ StopsAt text place) : FailsAt text text.length

theorem FirstFrom.unique {holds : Nat → Prop} {start offset other : Nat}
    (h : FirstFrom holds start offset) (h' : FirstFrom holds start other) : offset = other :=
  Nat.le_antisymm (h.earliest other h'.start_le h'.here) (h'.earliest offset h.start_le h.here)

private theorem not_closesAt_of_loneReturnAt {text : Text} {place : Nat}
    (h : LoneReturnAt text place) :
    ¬ ClosesAt text place := by
  intro hcloses
  cases h.1.symm.trans hcloses.1

theorem FailsAt.unique {text : Text} {offset other : Nat} (h : FailsAt text offset)
    (h' : FailsAt text other) : offset = other := by
  cases h with
  | unopened hopened =>
    cases h' with
    | unopened => rfl
    | loneReturn hopened' | closed hopened' | unclosed hopened' => exact absurd hopened' hopened
  | loneReturn hopened hfirst hreturn =>
    cases h' with
    | unopened hopened' => exact absurd hopened hopened'
    | loneReturn _ hfirst' => exact hfirst.unique hfirst'
    | closed _ hfirst' hcloses =>
      rw [← hfirst.unique hfirst'] at hcloses
      exact absurd hcloses (not_closesAt_of_loneReturnAt hreturn)
    | unclosed _ hnone => exact absurd hfirst.here (hnone _ hfirst.start_le)
  | closed hopened hfirst hcloses =>
    cases h' with
    | unopened hopened' => exact absurd hopened hopened'
    | loneReturn _ hfirst' hreturn =>
      rw [hfirst.unique hfirst'] at hcloses
      exact absurd hcloses (not_closesAt_of_loneReturnAt hreturn)
    | closed _ hfirst' => rw [hfirst.unique hfirst']
    | unclosed _ hnone => exact absurd hfirst.here (hnone _ hfirst.start_le)
  | unclosed hopened hnone =>
    cases h' with
    | unopened hopened' => exact absurd hopened hopened'
    | loneReturn _ hfirst | closed _ hfirst =>
      exact absurd hfirst.here (hnone _ hfirst.start_le)
    | unclosed => rfl

private theorem stopsAt_opened {body : Text} {offset : Nat} :
    StopsAt ('/' :: '*' :: '*' :: body) (offset + 3) ↔ StopsAt body offset := by
  simp only [StopsAt, ClosesAt, LoneReturnAt, List.getElem?_cons_succ]

private theorem snd_readLines (body : Text) : (readLines false body).2 = fromStop body := by
  rw [← (scan_lines false body 3).2, snd_scan]

private theorem readLines_stop (body : Text) :
    ((readLines false body).2 = [] ∧
        ∀ place, 3 ≤ place → ¬ StopsAt ('/' :: '*' :: '*' :: body) place) ∨
      ∃ offset, FirstFrom (StopsAt ('/' :: '*' :: '*' :: body)) 3 (offset + 3) ∧
        (readLines false body).2 = body.drop offset := by
  rw [snd_readLines]
  rcases fromStop_spec body with ⟨hnil, hnone⟩ | ⟨offset, hstop, hearliest, hdrop⟩
  · refine .inl ⟨hnil, ?_⟩
    intro place hplace
    obtain ⟨place, rfl⟩ := Nat.exists_eq_add_of_le' hplace
    exact fun hstop => hnone place (stopsAt_opened.1 hstop)
  · refine .inr ⟨offset, ⟨Nat.le_add_left 3 offset, stopsAt_opened.2 hstop, ?_⟩, hdrop⟩
    intro other hge hother
    obtain ⟨other, rfl⟩ := Nat.exists_eq_add_of_le' hge
    exact Nat.add_le_add_right (hearliest other (stopsAt_opened.1 hother)) 3

private theorem closesAt_iff_drop {body : Text} {offset : Nat} :
    ClosesAt body offset ↔ ['*', '/'] <+: body.drop offset := by
  have hchar (k : Nat) : body[offset + k]? = (body.drop offset)[k]? := List.getElem?_drop.symm
  rw [ClosesAt, ← Nat.add_zero offset, Nat.add_assoc, hchar, hchar]
  cases body.drop offset with
  | nil => simp
  | cons c rest => cases rest <;> simp [eq_comm]

private theorem failsAt_of_parse {text : Text} {error : SyntaxError}
    (h : parse text = .error error) :
    FailsAt text error.offset := by
  rcases parse_eq_error h with ⟨hopened, hoffset⟩ | ⟨body, rfl, hstop⟩
  · exact hoffset ▸ .unopened hopened
  have hopened : ['/', '*', '*'] <+: '/' :: '*' :: '*' :: body := ⟨body, rfl⟩
  rcases readLines_stop body with ⟨hnil, hnone⟩ | ⟨offset, hfirst, hdrop⟩
  · rw [hnil] at hstop
    rcases hstop with ⟨later, -, hrest, -⟩ | ⟨-, hoffset⟩
    · cases hrest
    · have hend : error.offset = ('/' :: '*' :: '*' :: body).length := by
        simp only [List.length_cons, List.length_nil] at hoffset ⊢
        omega
      exact hend ▸ .unclosed hopened hnone
  · rw [hdrop] at hstop
    rcases hstop with ⟨later, hlater, hrest, hoffset⟩ | ⟨hclosed, hoffset⟩
    · have hcloses : ClosesAt body offset := closesAt_iff_drop.2 ⟨later, hrest.symm⟩
      have hlength := congrArg List.length hrest
      simp only [List.length_drop, List.length_cons] at hlength
      have hpos := List.length_pos_iff.2 hlater
      have hplace : error.offset = offset + 3 + 2 := by omega
      rw [hplace]
      refine .closed hopened hfirst (closesAt_opened.2 hcloses) ?_
      simp only [List.length_cons]
      omega
    · have hreturn : LoneReturnAt ('/' :: '*' :: '*' :: body) (offset + 3) := by
        refine hfirst.here.resolve_left fun hcloses => ?_
        exact hclosed (closesAt_iff_drop.1 (closesAt_opened.1 hcloses))
      have hinside : offset < body.length := by
        have := List.getElem?_eq_some_iff.1 hreturn.1
        simp only [List.length_cons] at this
        obtain ⟨hlt, -⟩ := this
        omega
      have hplace : error.offset = offset + 3 := by
        rw [List.length_drop] at hoffset
        omega
      rw [hplace]
      exact .loneReturn hopened hfirst hreturn

end Scanning

/-- The place of every error is the first one behind the opening where a comment can stop,
or behind it when it is a closing delimiter. The grammar has one outcome on the text, and
that place is where its last rule failed, or where its match ended too early. -/
theorem parseTags_error_offset {text : Text} {error : SyntaxError}
    (h : parseTags text = .error error) :
    (∀ offset, FailsAt text offset ↔ offset = error.offset) ∧
      ∃ stop failures,
        (∀ stop' failures', Attempt text (.named .comment) 0 stop' failures' ↔
          stop' = stop ∧ failures' = failures) ∧
        WrongAt text stop failures error.offset := by
  have hparse : parse text = .error error := by
    unfold parseTags at h
    cases hparse : parse text with
    | ok lines =>
      rw [hparse] at h
      cases h
    | error other =>
      rw [hparse] at h
      exact congrArg Except.error (Except.error.inj h)
  have hfails := failsAt_of_parse hparse
  obtain ⟨stop, failures, hattempt, hwrong⟩ := exists_attempt_of_parse hparse
  refine ⟨fun offset => ⟨fun hoffset => hoffset.unique hfails, ?_⟩,
    stop, failures, fun stop' failures' => ⟨fun hother => hother.unique hattempt, ?_⟩, hwrong⟩
  · rintro rfl
    exact hfails
  · rintro ⟨rfl, rfl⟩
    exact hattempt

def brokenComment : Text := "/** a@b @c\n * @ d\re */ f".toList

theorem parseTags_error_offset_broken :
    parseTags brokenComment = .error (.unclosed 17) ∧
      (∀ offset, FailsAt brokenComment offset ↔ offset = 17) ∧
      ∃ stop failures, Attempt brokenComment (.named .comment) 0 stop failures ∧
        WrongAt brokenComment stop failures 17 := by
  have hread : parseTags brokenComment = .error (.unclosed 17) := by decide +kernel
  obtain ⟨hplace, stop, failures, hattempt, hwrong⟩ := parseTags_error_offset hread
  exact ⟨hread, hplace, stop, failures, (hattempt stop failures).2 ⟨rfl, rfl⟩, hwrong⟩

end OverrideLint.DocComment
