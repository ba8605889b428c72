import OverrideLint.Proofs.DocComment.Lines
import OverrideLint.Proofs.Text.Trim
import OverrideLint.Rule.TagScan

/-! Taking tags out of a comment, or naming them `override`, leaves a comment with the
other tags as they were. What a cut brings together are blanks and the end of a line, a
tag or a stray at-sign, so no new tag, leader or delimiter comes about. -/
namespace OverrideLint.DocComment

inductive Amendment
  | keep
  | rename
  | cut
deriving DecidableEq

namespace Amendment

def name? (name : Text) : Amendment → Option Text
  | keep => some name
  | rename => some overrideName.toList
  | cut => none

end Amendment

variable (act : DocTag → Amendment)

def amendItem (offset : Nat) : Item → Text
  | .char c => [c]
  | .tag name run =>
    match (act (DocTag.ofSegment offset name run)).name? name with
    | some name => '@' :: name ++ run
    | none => Text.trailing run

def amend (offset : Nat) : List Item → Text
  | [] => []
  | item :: rest => amendItem act offset item ++ amend (offset + item.render.length) rest

/-- The tags of amended items: `offset` is where the items stood, `place` where they
stand now. -/
def amendedTags (offset place : Nat) : List Item → List DocTag
  | [] => []
  | .char c :: rest => amendedTags (offset + (Item.char c).render.length) (place + 1) rest
  | .tag name run :: rest =>
    (((act (DocTag.ofSegment offset name run)).name? name).map
        (DocTag.ofSegment place · run)).toList ++
      amendedTags (offset + (Item.tag name run).render.length)
        (place + (amendItem act offset (.tag name run)).length) rest

def amendText (cursor : Cursor) (offset : Nat) (text : Text) : Text :=
  amend act offset (scan cursor text).1 ++ (scan cursor text).2

section Equations

variable {act} {cursor : Cursor} {offset : Nat}

private theorem amendText_of_tag {text name run after : Text}
    (h : cursor.readTag? text = some (name, run, after)) :
    amendText act cursor offset text = amendItem act offset (.tag name run) ++
      amendText act .afterRun (offset + (Item.tag name run).render.length) after := by
  unfold amendText
  rw [scan_of_tag h, amend, List.append_assoc]

private theorem amendText_of_char {c : Char} {rest : Text}
    (hread : cursor.readTag? (c :: rest) = none) (hstops : stops c rest = false) :
    amendText act cursor offset (c :: rest) =
      c :: amendText act (cursor.advance c) (offset + 1) rest := by
  unfold amendText
  rw [scan_of_char hread hstops]
  rfl

private theorem amendText_of_stops {c : Char} {rest : Text} (h : stops c rest = true) :
    amendText act cursor offset (c :: rest) = c :: rest := by
  unfold amendText
  rw [scan_of_stops h]
  rfl

private theorem amendText_nil : amendText act cursor offset [] = [] := by
  unfold amendText
  rw [scan_nil]
  rfl

end Equations

/-! Names. -/

def isName : Text → Bool
  | [] => false
  | c :: rest => isNameStart c && rest.all isNameChar

private theorem isName_override : isName overrideName.toList = true := by
  decide

def endsName (text : Text) : Prop := ∀ c, text.head? = some c → isNameChar c = false

theorem takeWhile_append_of_endsName {name rest : Text} (hname : name.all isNameChar = true)
    (hrest : endsName rest) :
    (name ++ rest).takeWhile isNameChar = name ∧ (name ++ rest).dropWhile isNameChar = rest := by
  have hstop : rest.takeWhile isNameChar = [] ∧ rest.dropWhile isNameChar = rest := by
    cases rest with
    | nil => exact ⟨rfl, rfl⟩
    | cons c rest =>
      have hc := hrest c rfl
      exact ⟨List.takeWhile_cons_of_neg (by simp [hc]), List.dropWhile_cons_of_neg (by simp [hc])⟩
  have hall := List.all_eq_true.1 hname
  rw [List.takeWhile_append_of_pos hall, List.dropWhile_append_of_pos hall, hstop.1, hstop.2,
    List.append_nil]
  exact ⟨rfl, rfl⟩

private theorem readTag_of_isName {name rest : Text} (hname : isName name = true)
    (hrest : endsName rest) :
    readTag ('@' :: name ++ rest) =
      some (name, (splitRun false rest).1, (splitRun false rest).2) := by
  cases name with
  | nil => cases hname
  | cons c name =>
    obtain ⟨hstart, hall⟩ := (Bool.and_eq_true_iff).1 hname
    obtain ⟨htake, hdrop⟩ := takeWhile_append_of_endsName hall hrest
    show readTag ('@' :: c :: (name ++ rest)) = _
    rw [readTag, if_pos hstart, htake, hdrop]

theorem isName_of_readTag {text name run after : Text}
    (h : readTag text = some (name, run, after)) :
    isName name = true ∧ splitRun false (run ++ after) = (run, after) ∧
      endsName (run ++ after) := by
  unfold readTag at h
  split at h
  · rename_i c rest
    split at h
    · rename_i hstart
      simp only [Option.some.injEq, Prod.mk.injEq] at h
      obtain ⟨rfl, rfl, rfl⟩ := h
      rw [splitRun_append]
      refine ⟨?_, rfl, ?_⟩
      · rw [isName, hstart, List.all_takeWhile, Bool.and_self]
      · intro d hd
        have := List.head?_dropWhile_not isNameChar rest
        rw [hd] at this
        simpa using this
    · cases h
  · cases h

/-! Blanks that a cut leaves behind. -/

private def IsGap (gap : Text) : Prop := ∀ c ∈ gap, Text.isBlank c = true ∧ c ≠ '\r' ∧ c ≠ '\n'

private theorem not_lineBreak_of_mem_splitRun (afterSpace : Bool) (text : Text) {c : Char}
    (h : c ∈ (splitRun afterSpace text).1) : c ≠ '\r' ∧ c ≠ '\n' := by
  fun_induction splitRun afterSpace text with
  | case1 => cases h
  | case2 => cases h
  | case3 afterSpace d rest hd more ih =>
    rcases List.mem_cons.1 h with rfl | hmore
    · grind
    · exact ih hmore

private theorem isGap_trailing {afterSpace : Bool} {text run after : Text}
    (h : splitRun afterSpace text = (run, after)) : IsGap (Text.trailing run) := by
  intro c hc
  refine ⟨Text.isBlank_of_mem_trailing hc, ?_⟩
  apply not_lineBreak_of_mem_splitRun afterSpace text
  rw [h]
  exact Text.mem_of_mem_trailing hc

private theorem blank_ne {c : Char} (h : Text.isBlank c = true) :
    c ≠ '@' ∧ c ≠ '*' ∧ c ≠ '/' ∧ isNameStart c = false := by
  refine ⟨?_, ?_, ?_, ?_⟩
  · rintro rfl
    cases h
  · rintro rfl
    cases h
  · rintro rfl
    cases h
  · rw [Bool.eq_false_iff]
    intro hname
    simp only [isNameStart, Bool.or_eq_true, beq_iff_eq] at hname
    rcases hname with (halpha | rfl) | rfl
    · have hrange : (decide (c.val ≥ 65 ∧ c.val ≤ 90) ||
          decide (c.val ≥ 97) && decide (c.val ≤ 122)) = true := halpha
      simp only [ge_iff_le, Bool.or_eq_true, Bool.and_eq_true, decide_eq_true_eq,
        UInt32.le_iff_toNat_le] at hrange
      have hletter : (65 ≤ c.val.toNat ∧ c.val.toNat ≤ 90) ∨
          (97 ≤ c.val.toNat ∧ c.val.toNat ≤ 122) := hrange
      simp only [Text.isBlank, Text.isSpace, Char.toNat, Bool.or_eq_true, Bool.and_eq_true,
        decide_eq_true_eq, beq_iff_eq] at h
      omega
    · cases h
    · cases h

private theorem splitRun_gap {gap : Text} (hgap : IsGap gap) (afterSpace : Bool) (text : Text) :
    splitRun afterSpace (gap ++ text) =
      (gap ++ (splitRun (spaceAfter afterSpace gap) text).1,
        (splitRun (spaceAfter afterSpace gap) text).2) := by
  induction gap generalizing afterSpace with
  | nil => rfl
  | cons c gap ih =>
    obtain ⟨hblank, hreturn, hfeed⟩ := hgap c List.mem_cons_self
    obtain ⟨hat, hstar, _⟩ := blank_ne hblank
    have hrest : IsGap gap := fun d hd => hgap d (List.mem_cons_of_mem _ hd)
    rw [List.cons_append, splitRun, if_neg (by simp [hreturn, hfeed, hat, hstar]), ih hrest]
    rfl

theorem afterSpace_advance (cursor : Cursor) (c : Char) :
    (cursor.advance c).afterSpace = Text.isSpace c := by
  unfold Cursor.advance
  split
  · rename_i hfeed
    rw [hfeed]
    rfl
  split
  · rename_i hat
    rw [hat.1]
    rfl
  split
  · split
    · rename_i hindent
      rcases isIndent_iff.1 hindent with rfl | rfl <;> rfl
    · split
      · rename_i hstar
        rw [hstar]
        rfl
      · rfl
  · split
    · rename_i hindent
      rcases isIndent_iff.1 hindent with rfl | rfl <;> rfl
    · rfl
  · rfl

private theorem scan_gap {gap : Text} (hgap : IsGap gap) (cursor : Cursor) (text : Text) :
    ∃ behind : Cursor, (gap = [] → behind = cursor) ∧
      behind.afterSpace = spaceAfter cursor.afterSpace gap ∧
      scan cursor (gap ++ text) =
        (gap.map Item.char ++ (scan behind text).1, (scan behind text).2) := by
  induction gap generalizing cursor with
  | nil => exact ⟨cursor, fun _ => rfl, rfl, rfl⟩
  | cons c gap ih =>
    obtain ⟨hblank, hreturn, hfeed⟩ := hgap c List.mem_cons_self
    obtain ⟨hat, hstar, _⟩ := blank_ne hblank
    obtain ⟨behind, _, hspace, hscan⟩ :=
      ih (fun d hd => hgap d (List.mem_cons_of_mem _ hd)) (cursor.advance c)
    refine ⟨behind, by simp, ?_, ?_⟩
    · rw [hspace, afterSpace_advance]
      rfl
    · rw [List.cons_append, scan_of_char (Cursor.readTag?_of_head_ne (by simpa using hat))
        (by simp [stops, hreturn, hstar]), hscan]
      rfl

private theorem exists_concat_of_spaceAfter {run : Text} (h : spaceAfter false run = true) :
    ∃ before c, run = before ++ [c] ∧ Text.isSpace c = true := by
  rcases List.eq_nil_or_concat run with rfl | ⟨before, c, rfl⟩
  · cases h
  · rw [List.concat_eq_append, spaceAfter_append] at h
    exact ⟨before, c, List.concat_eq_append, h⟩

private theorem spaceAfter_trailing {run : Text} (h : spaceAfter false run = true)
    (afterSpace : Bool) :
    spaceAfter afterSpace (Text.trailing run) = true := by
  obtain ⟨before, c, rfl, hc⟩ := exists_concat_of_spaceAfter h
  rw [Text.trailing_concat (Text.isBlank_of_isSpace hc), spaceAfter_append]
  exact hc

private theorem after_of_readTag {text name run after : Text}
    (h : readTag text = some (name, run, after)) :
    atLineEnd after = true ∨ after.head? = some '@' ∧ spaceAfter false run = true := by
  have hrun := (isName_of_readTag h).2.1
  have := splitRun_after false (run ++ after)
  rw [hrun] at this
  exact this

private theorem head_of_atLineEnd {text : Text} {c : Char} (hend : atLineEnd text = true)
    (hhead : text.head? = some c) : c = '\n' ∨ c = '\r' ∨ c = '*' := by
  cases text with
  | nil => cases hhead
  | cons d rest =>
    cases hhead
    simp only [atLineEnd, Bool.or_eq_true, Bool.and_eq_true, beq_iff_eq] at hend
    grind

/-! How amended text starts. -/

variable {act}

private theorem head_amendText_of_ne {cursor : Cursor} {offset : Nat} {text : Text}
    (h : text.head? ≠ some '@') : (amendText act cursor offset text).head? = text.head? := by
  cases text with
  | nil => rw [amendText_nil]
  | cons c rest =>
    cases hstops : stops c rest with
    | true => rw [amendText_of_stops hstops]
    | false => rw [amendText_of_char (Cursor.readTag?_of_head_ne h) hstops]; rfl

/-- Amended text starts as before, unless a tag was cut from its start; then it starts
with nothing that could continue a delimiter or make a tag of an at-sign. -/
theorem head_amendText (act : DocTag → Amendment) (cursor : Cursor) (offset : Nat) (text : Text) :
    (amendText act cursor offset text).head? = text.head? ∨
      text.head? = some '@' ∧ ∀ c, (amendText act cursor offset text).head? = some c →
        isNameStart c = false ∧ c ≠ '/' := by
  by_cases hat : text.head? = some '@'
  · cases hread : cursor.readTag? text with
    | none =>
      cases text with
      | nil => cases hat
      | cons c rest =>
        cases hat
        rw [amendText_of_char hread (by simp [stops])]
        exact .inl rfl
    | some parts =>
      obtain ⟨name, run, after⟩ := parts
      have htag := (Cursor.readTag_of_readTag? hread).2
      rw [amendText_of_tag hread, amendItem]
      split
      · exact .inl hat.symm
      · refine .inr ⟨hat, ?_⟩
        intro c hc
        cases htrail : Text.trailing run with
        | cons d rest =>
          rw [htrail] at hc
          cases hc
          have hmem : c ∈ Text.trailing run := by
            rw [htrail]
            exact List.mem_cons_self
          have hblank := Text.isBlank_of_mem_trailing hmem
          exact ⟨(blank_ne hblank).2.2.2, (blank_ne hblank).2.2.1⟩
        | nil =>
          rw [htrail, List.nil_append] at hc
          rcases after_of_readTag htag with hend | ⟨_, hspace⟩
          · have hhead : after.head? ≠ some '@' := by
              intro h
              rcases head_of_atLineEnd hend h with h | h | h <;> cases h
            rw [head_amendText_of_ne hhead] at hc
            rcases head_of_atLineEnd hend hc with rfl | rfl | rfl <;> exact ⟨rfl, by decide⟩
          · have := spaceAfter_trailing hspace false
            rw [htrail] at this
            cases this
  · exact .inl (head_amendText_of_ne hat)

theorem splitRun_of_atLineEnd {afterSpace : Bool} {text : Text} (h : atLineEnd text = true) :
    splitRun afterSpace text = ([], text) := by
  cases text with
  | nil => rfl
  | cons c rest =>
    simp only [atLineEnd, Bool.or_eq_true, Bool.and_eq_true, beq_iff_eq] at h
    rw [splitRun, if_pos (by grind)]

private theorem atLineEnd_amendText {cursor : Cursor} {offset : Nat} {text : Text}
    (h : atLineEnd text = true) : atLineEnd (amendText act cursor offset text) = true := by
  cases text with
  | nil => rw [amendText_nil]; rfl
  | cons c rest =>
    cases hstops : stops c rest with
    | true => rw [amendText_of_stops hstops]; exact h
    | false =>
      have hread : cursor.readTag? (c :: rest) = none := by
        apply Cursor.readTag?_of_head_ne
        intro hat
        rcases head_of_atLineEnd h hat with h | h | h <;> cases h
      rw [amendText_of_char hread hstops]
      simp only [atLineEnd, stops, Bool.or_eq_true, Bool.and_eq_true, beq_iff_eq,
        Bool.or_eq_false_iff, Bool.and_eq_false_iff, beq_eq_false_iff_ne] at h hstops ⊢
      grind

private theorem blank_of_mem_splitRun_amendText {cursor : Cursor} {offset : Nat} {text : Text}
    {afterSpace : Bool} {c : Char}
    (hplace : atLineEnd text = true ∨ text.head? = some '@' ∧ afterSpace = true)
    (hc : c ∈ (splitRun afterSpace (amendText act cursor offset text)).1) :
    Text.isBlank c = true := by
  fun_induction scan cursor text generalizing offset afterSpace with
  | case1 cursor text name run after hread more =>
    rename_i ih
    have htag := (Cursor.readTag_of_readTag? hread).2
    rcases hplace with hend | ⟨_, rfl⟩
    · rw [splitRun_of_atLineEnd (atLineEnd_amendText hend)] at hc
      cases hc
    rw [amendText_of_tag hread, amendItem] at hc
    split at hc
    · rw [List.cons_append, List.cons_append, splitRun, if_pos (by simp)] at hc
      cases hc
    · rw [splitRun_gap (isGap_trailing (isName_of_readTag htag).2.1)] at hc
      rcases List.mem_append.1 hc with htrail | hlater
      · exact Text.isBlank_of_mem_trailing htrail
      · apply ih _ hlater
        rcases after_of_readTag htag with hend | ⟨hat, hspace⟩
        · exact .inl hend
        · exact .inr ⟨hat, spaceAfter_trailing hspace true⟩
  | case2 cursor hread =>
    rw [amendText_nil] at hc
    cases hc
  | case3 cursor d rest hread hstops =>
    rcases hplace with hend | ⟨hat, rfl⟩
    · rw [splitRun_of_atLineEnd (atLineEnd_amendText hend)] at hc
      cases hc
    · cases hat
      simp [stops] at hstops
  | case4 cursor d rest hread hstops more =>
    rcases hplace with hend | ⟨hat, rfl⟩
    · rw [splitRun_of_atLineEnd (atLineEnd_amendText hend)] at hc
      cases hc
    · cases hat
      rw [amendText_of_char hread (by simpa using hstops), splitRun, if_pos (by simp)] at hc
      cases hc

private theorem splitRun_run_append {afterSpace : Bool} {text run after : Text}
    (h : splitRun afterSpace text = (run, after)) {later : Text} (hlater : later.head? ≠ some '/') :
    splitRun afterSpace (run ++ later) =
      (run ++ (splitRun (spaceAfter afterSpace run) later).1,
        (splitRun (spaceAfter afterSpace run) later).2) := by
  induction run generalizing afterSpace text with
  | nil => rfl
  | cons c run ih =>
    obtain ⟨rest, rfl, hrest, hgo⟩ := splitRun_cons h
    have hnext : (run ++ later).head? = some '/' → rest.head? = some '/' := by
      intro hslash
      cases run with
      | nil => exact absurd hslash hlater
      | cons d run =>
        obtain ⟨more, rfl, _⟩ := splitRun_cons hrest
        exact hslash
    rw [List.cons_append, splitRun, if_neg (by grind), ih hrest]
    rfl

private theorem endsName_of_atLineEnd {text : Text} (h : atLineEnd text = true) :
    endsName text := by
  intro c hc
  rcases head_of_atLineEnd h hc with rfl | rfl | rfl <;> decide

private theorem readTag_amendText (act : DocTag → Amendment) (offset : Nat)
    {text name run after newName : Text}
    (h : readTag text = some (name, run, after)) (hname : isName newName = true) :
    readTag ('@' :: newName ++ run ++ amendText act .afterRun offset after) =
      some (newName,
        run ++ (splitRun (spaceAfter false run) (amendText act .afterRun offset after)).1,
        (splitRun (spaceAfter false run) (amendText act .afterRun offset after)).2) := by
  obtain ⟨_, hrun, hends⟩ := isName_of_readTag h
  have hslash : (amendText act .afterRun offset after).head? ≠ some '/' := by
    intro hslash
    rcases head_amendText act .afterRun offset after with hsame | ⟨_, hhead⟩
    · rcases after_of_readTag h with hend | ⟨hat, _⟩
      · rcases head_of_atLineEnd hend (hsame.symm.trans hslash) with h | h | h <;> cases h
      · cases hat.symm.trans (hsame.symm.trans hslash)
    · exact (hhead '/' hslash).2 rfl
  have hendsNew : endsName (run ++ amendText act .afterRun offset after) := by
    cases run with
    | cons c run => exact hends
    | nil =>
      rcases after_of_readTag h with hend | ⟨_, hspace⟩
      · exact endsName_of_atLineEnd (atLineEnd_amendText hend)
      · cases hspace
  rw [List.append_assoc, readTag_of_isName hname hendsNew, splitRun_run_append hrun hslash]

/-- Two readers of one text whose ways part nowhere behind it. -/
def Agrees (cursor cursor' : Cursor) (text : Text) : Prop :=
  cursor = cursor' ∨ atLineEnd text = true ∨
    text.head? = some '@' ∧ cursor.afterSpace = true ∧ cursor'.afterSpace = true

namespace Agrees

variable {cursor cursor' : Cursor}

theorem admitsTag {text : Text} (h : Agrees cursor cursor' text) (hat : text.head? = some '@') :
    cursor'.admitsTag = cursor.admitsTag := by
  rcases h with rfl | hend | ⟨_, hspace, hspace'⟩
  · rfl
  · rcases head_of_atLineEnd hend hat with h | h | h <;> cases h
  · rw [Cursor.admitsTag, Cursor.admitsTag, hspace, hspace', Bool.or_true, Bool.or_true]

theorem advance {c : Char} {rest : Text} (h : Agrees cursor cursor' (c :: rest))
    (hstops : stops c rest = false) : Agrees (cursor.advance c) (cursor'.advance c) rest := by
  rcases h with rfl | hend | ⟨hat, hspace, hspace'⟩
  · exact .inl rfl
  · by_cases hfeed : c = '\n'
    · left
      rw [Cursor.advance, Cursor.advance, if_pos hfeed, if_pos hfeed]
    · right
      left
      simp only [atLineEnd, stops, Bool.or_eq_true, Bool.and_eq_true, beq_iff_eq,
        Bool.or_eq_false_iff, Bool.and_eq_false_iff, beq_eq_false_iff_ne, bne_eq_false_iff_eq]
        at hend hstops
      have hnext : rest.head? = some '\n' := by grind
      cases rest with
      | nil => cases hnext
      | cons d rest =>
        cases hnext
        rfl
  · cases hat
    left
    simp [Cursor.advance, hspace, hspace']

theorem afterTag {text name run after : Text} (h : readTag text = some (name, run, after))
    (hspace : spaceAfter false run = true → cursor'.afterSpace = true) :
    Agrees .afterRun cursor' after := by
  rcases after_of_readTag h with hend | ⟨hat, hrun⟩
  · exact .inr (.inl hend)
  · exact .inr (.inr ⟨hat, rfl, hspace hrun⟩)

end Agrees

private theorem readTag?_amendText {cursor cursor' : Cursor} {c : Char} {rest : Text}
    (hagrees : Agrees cursor cursor' (c :: rest)) (hread : cursor.readTag? (c :: rest) = none)
    (behind : Cursor) (offset : Nat) :
    cursor'.readTag? (c :: amendText act behind offset rest) = none := by
  by_cases hat : c = '@'
  · subst hat
    unfold Cursor.readTag? at hread ⊢
    rw [hagrees.admitsTag rfl]
    split at hread
    · rename_i hadmits
      rw [if_pos hadmits]
      have hstart : ∀ d, rest.head? = some d → isNameStart d = false := by
        intro d hd
        cases rest with
        | nil => cases hd
        | cons e rest =>
          cases hd
          rw [Bool.eq_false_iff]
          intro hstart
          rw [readTag, if_pos hstart] at hread
          cases hread
      have hstart' : ∀ d, (amendText act behind offset rest).head? = some d →
          isNameStart d = false := by
        intro d hd
        rcases head_amendText act behind offset rest with hsame | ⟨_, hcut⟩
        · exact hstart d (hsame.symm.trans hd)
        · exact (hcut d hd).1
      cases hrest : amendText act behind offset rest with
      | nil => rfl
      | cons d more =>
        rw [readTag, if_neg]
        rw [hstart' d (by rw [hrest]; rfl)]
        exact Bool.false_ne_true
    · rename_i hadmits
      rw [if_neg hadmits]
  · exact Cursor.readTag?_of_head_ne (by simpa using hat)

private theorem stops_amendText {c : Char} {rest : Text} (h : stops c rest = false)
    (behind : Cursor) (offset : Nat) : stops c (amendText act behind offset rest) = false := by
  simp only [stops, Bool.or_eq_false_iff, Bool.and_eq_false_iff, beq_eq_false_iff_ne,
    bne_eq_false_iff_eq] at h ⊢
  refine ⟨?_, ?_⟩
  · rcases h.1 with hc | hslash
    · exact .inl hc
    · right
      intro hhead
      rcases head_amendText act behind offset rest with hsame | ⟨_, hcut⟩
      · exact hslash (hsame.symm.trans hhead)
      · exact (hcut '/' hhead).2 rfl
  · rcases h.2 with hc | hfeed
    · exact .inl hc
    · right
      rw [head_amendText_of_ne (by simp [hfeed]), hfeed]

private theorem ofSegment_append_blanks {offset : Nat} {name run blanks : Text}
    (h : ∀ c ∈ blanks, Text.isBlank c = true) :
    DocTag.ofSegment offset name (run ++ blanks) = DocTag.ofSegment offset name run := by
  simp only [DocTag.ofSegment, Text.trimRight_append_blanks run h]

private theorem isName_of_name? {amendment : Amendment} {name newName : Text}
    (hname : isName name = true)
    (h : amendment.name? name = some newName) : isName newName = true := by
  cases amendment with
  | keep => cases h; exact hname
  | rename => cases h; exact isName_override
  | cut => cases h

/-- An amended comment ends where it did and has the amended tags. -/
theorem scan_amendText (act : DocTag → Amendment) (cursor cursor' : Cursor) (text : Text)
    (hagrees : Agrees cursor cursor' text) (offset place : Nat) :
    (scan cursor' (amendText act cursor offset text)).2 = (scan cursor text).2 ∧
      itemTags place (scan cursor' (amendText act cursor offset text)).1 =
        amendedTags act offset place (scan cursor text).1 := by
  fun_induction scan cursor text generalizing cursor' offset place with
  | case1 cursor text name run after hread more =>
    rename_i ih
    obtain ⟨hadmits, htag⟩ := Cursor.readTag_of_readTag? hread
    obtain ⟨hname, hrun, _⟩ := isName_of_readTag htag
    have hadmits' : cursor'.admitsTag = true :=
      (hagrees.admitsTag (readTag_head htag)).trans hadmits
    rw [amendText_of_tag hread, amendItem, amendedTags, amendItem]
    cases hact : (act (DocTag.ofSegment offset name run)).name? name with
    | some newName =>
      simp only [Option.map_some, Option.toList_some, List.singleton_append]
      generalize offset + (Item.tag name run).render.length = behind
      obtain ⟨hend, htags⟩ := ih ⟨.inside, spaceAfter false run⟩ (.afterTag htag id) behind
        (place + ('@' :: newName ++ run).length)
      have hblank : ∀ c ∈ (splitRun (spaceAfter false run) (amendText act .afterRun behind after)).1,
          Text.isBlank c = true := by
        intro c hc
        exact blank_of_mem_splitRun_amendText (after_of_readTag htag) hc
      have hread' := readTag_amendText act behind htag (isName_of_name? hname hact)
      rw [scan_run] at hend htags
      generalize splitRun (spaceAfter false run) (amendText act .afterRun behind after) = parts
        at hread' hend htags hblank
      rw [scan_of_tag (by rw [Cursor.readTag?, if_pos hadmits', hread'])]
      refine ⟨hend, ?_⟩
      rw [itemTags_chars] at htags
      rw [itemTags, ofSegment_append_blanks hblank, ← htags]
      congr 2
      simp only [Item.render, List.cons_append, List.length_cons, List.length_append]
      omega
    | none =>
      simp only [Option.map_none, Option.toList_none, List.nil_append]
      obtain ⟨cursor'', _, hspace, hscan⟩ := scan_gap (isGap_trailing hrun) cursor'
        (amendText act .afterRun (offset + (Item.tag name run).render.length) after)
      rw [hscan, itemTags_chars]
      apply ih
      apply Agrees.afterTag htag
      intro hrun
      rw [hspace, spaceAfter_trailing hrun]
  | case2 cursor hread =>
    rw [amendText_nil, scan_nil]
    exact ⟨rfl, rfl⟩
  | case3 cursor c rest hread hstops =>
    rw [amendText_of_stops hstops, scan_of_stops hstops]
    exact ⟨rfl, rfl⟩
  | case4 cursor c rest hread hstops more =>
    rename_i ih
    rw [Bool.not_eq_true] at hstops
    rw [amendText_of_char hread hstops, scan_of_char (readTag?_amendText hagrees hread _ _)
      (stops_amendText hstops _ _)]
    exact ih _ (hagrees.advance hstops) (offset + 1) (place + 1)

end OverrideLint.DocComment
