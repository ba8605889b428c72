import OverrideLint.Proofs.DocComment.Acceptance
import OverrideLint.Proofs.DocComment.Amend

/-! Where tags start. Nothing but the characters before an at-sign decides whether it
starts a tag: white space, the margin of its line, or a stray at-sign after white space. -/
namespace OverrideLint.DocComment

def startsFrom (cursor : Cursor) (offset : Nat) : Text → List Nat
  | [] => []
  | c :: rest =>
    if (cursor.readTag? (c :: rest)).isSome then
      offset :: startsFrom (cursor.advance c) (offset + 1) rest
    else startsFrom (cursor.advance c) (offset + 1) rest

section Skipping

/-! Within a tag, no other tag starts. -/

private theorem startsFrom_of_tag {cursor : Cursor} {offset : Nat} {c : Char} {rest : Text}
    {parts : Text × Text × Text} (h : cursor.readTag? (c :: rest) = some parts) :
    startsFrom cursor offset (c :: rest) =
      offset :: startsFrom (cursor.advance c) (offset + 1) rest := by
  rw [startsFrom, h, if_pos Option.isSome_some]

private theorem startsFrom_of_none {cursor : Cursor} {offset : Nat} {c : Char} {rest : Text}
    (h : cursor.readTag? (c :: rest) = none) :
    startsFrom cursor offset (c :: rest) = startsFrom (cursor.advance c) (offset + 1) rest := by
  rw [startsFrom, h, if_neg (by simp)]

private def spaceCodes : List Nat :=
  List.range' 0x9 5 ++ [0x20, 0x85, 0xA0, 0x1680] ++ List.range' 0x2000 11 ++
    [0x2028, 0x2029, 0x202F, 0x205F, 0x3000]

private theorem toNat_mem_spaceCodes {c : Char} (h : Text.isSpace c = true) :
    c.toNat ∈ spaceCodes := by
  simp only [Text.isSpace, Bool.or_eq_true, Bool.and_eq_true, decide_eq_true_eq, beq_iff_eq] at h
  simp only [spaceCodes, List.mem_append, List.mem_range'_1, List.mem_cons, List.not_mem_nil]
  omega

theorem isSpace_of_isNameChar {c : Char} (h : isNameChar c = true) : Text.isSpace c = false := by
  have hcodes : ∀ code ∈ spaceCodes, isNameChar (Char.ofNat code) = false := by decide +kernel
  rw [Bool.eq_false_iff]
  intro hspace
  have := hcodes c.toNat (toNat_mem_spaceCodes hspace)
  rw [Char.ofNat_toNat, h] at this
  cases this

private theorem advance_nameChar {cursor : Cursor} {c : Char}
    (hspot : cursor.spot = .inside ∨ cursor.spot = .stray) (hc : isNameChar c = true) :
    cursor.advance c = ⟨.inside, false⟩ := by
  have hat : c ≠ '@' := ne_of_isNameChar hc (by decide)
  rw [Cursor.advance_in_word hspot (ne_of_isNameChar hc (by decide)) (absurd · hat),
    isSpace_of_isNameChar hc]

private theorem readTag?_nameChar {cursor : Cursor} {c : Char} (hc : isNameChar c = true)
    (rest : Text) :
    cursor.readTag? (c :: rest) = none :=
  Cursor.readTag?_of_head_ne (by simpa using ne_of_isNameChar hc (by decide))

private theorem startsFrom_nameChars {name : Text} (hname : name.all isNameChar = true)
    (offset : Nat) (rest : Text) :
    startsFrom ⟨.inside, false⟩ offset (name ++ rest) =
      startsFrom ⟨.inside, false⟩ (offset + name.length) rest := by
  induction name generalizing offset with
  | nil => rfl
  | cons c name ih =>
    obtain ⟨hc, hall⟩ := Bool.and_eq_true_iff.1 hname
    rw [List.cons_append, startsFrom_of_none (readTag?_nameChar hc _),
      advance_nameChar (.inl rfl) hc, ih hall, List.length_cons, Nat.add_assoc, Nat.add_comm 1]

private theorem spot_advance_at (cursor : Cursor) :
    (cursor.advance '@').spot = .inside ∨ (cursor.advance '@').spot = .stray := by
  obtain ⟨spot, afterSpace⟩ := cursor
  cases spot <;> cases afterSpace <;> decide

private theorem startsFrom_name {name : Text} (hname : isName name = true) (cursor : Cursor)
    (offset : Nat) (rest : Text) :
    startsFrom (cursor.advance '@') offset (name ++ rest) =
      startsFrom ⟨.inside, false⟩ (offset + name.length) rest := by
  cases name with
  | nil => cases hname
  | cons c name =>
    obtain ⟨hstart, hall⟩ := Bool.and_eq_true_iff.1 hname
    have hc := isNameChar_of_isNameStart hstart
    rw [List.cons_append, startsFrom_of_none (readTag?_nameChar hc _),
      advance_nameChar (spot_advance_at cursor) hc, startsFrom_nameChars hall, List.length_cons,
      Nat.add_assoc, Nat.add_comm 1]

private theorem startsFrom_run (afterSpace : Bool) (offset : Nat) (text : Text) :
    startsFrom ⟨.inside, afterSpace⟩ offset text =
      startsFrom ⟨.inside, spaceAfter afterSpace (splitRun afterSpace text).1⟩
        (offset + (splitRun afterSpace text).1.length) (splitRun afterSpace text).2 := by
  fun_induction splitRun afterSpace text generalizing offset with
  | case1 => rfl
  | case2 => rfl
  | case3 afterSpace c rest hc more ih =>
    have hat : c = '@' → afterSpace = false := by grind
    rw [startsFrom_of_none (Cursor.readTag?_in_word hat),
      Cursor.advance_in_word (.inl rfl) (by grind) hat, ih, List.length_cons, Nat.add_assoc,
      Nat.add_comm 1]
    rfl

end Skipping

private theorem startsFrom_of_readTag {cursor : Cursor} {text name run after : Text}
    (h : cursor.readTag? text = some (name, run, after)) (offset : Nat) :
    startsFrom cursor offset text =
      offset :: startsFrom ⟨.inside, spaceAfter false run⟩
        (offset + (Item.tag name run).render.length) after := by
  have hread := (Cursor.readTag_of_readTag? h).2
  obtain ⟨hname, hrun, -⟩ := isName_of_readTag hread
  have htext : text = '@' :: (name ++ (run ++ after)) := by
    rw [← readTag_append hread, List.cons_append, List.cons_append, List.append_assoc]
  subst htext
  rw [startsFrom_of_tag h, startsFrom_name hname, startsFrom_run, hrun]
  congr 2
  simp only [Item.render, List.cons_append, List.length_cons, List.length_append]
  omega

/-- The scan and the reader that goes on one character at a time find the same tags. -/
theorem startsFrom_scan {cursor : Cursor} (cursor' : Cursor) {text : Text}
    (h : Agrees cursor cursor' text) (offset : Nat) :
    ∃ behind, startsFrom cursor' offset text =
      (itemTags offset (scan cursor text).1).map (·.span.start) ++
        startsFrom behind (offset + ((scan cursor text).1.flatMap Item.render).length)
          (scan cursor text).2 := by
  fun_induction scan cursor text generalizing cursor' offset with
  | case1 cursor text name run after hread more =>
    rename_i ih
    have htag := Cursor.readTag_of_readTag? hread
    have hread' : cursor'.readTag? text = some (name, run, after) := by
      rw [Cursor.readTag?, if_pos ((h.admitsTag (readTag_head htag.2)).trans htag.1), htag.2]
    obtain ⟨behind, hbehind⟩ := ih ⟨.inside, spaceAfter false run⟩ (.afterTag htag.2 id)
      (offset + (Item.tag name run).render.length)
    refine ⟨behind, ?_⟩
    rw [startsFrom_of_readTag hread', hbehind, List.flatMap_cons, List.length_append,
      ← Nat.add_assoc]
    rfl
  | case2 cursor hread => exact ⟨cursor', rfl⟩
  | case3 cursor c rest hread hstops => exact ⟨cursor', rfl⟩
  | case4 cursor c rest hread hstops more =>
    rename_i ih
    rw [Bool.not_eq_true] at hstops
    have hread' : cursor'.readTag? (c :: rest) = none := by
      by_cases hat : c = '@'
      · rw [Cursor.readTag?, h.admitsTag (by rw [hat]; rfl)]
        exact hread
      · exact Cursor.readTag?_of_head_ne (by simpa using hat)
    obtain ⟨behind, hbehind⟩ := ih (cursor'.advance c) (h.advance hstops) (offset + 1)
    refine ⟨behind, ?_⟩
    rw [startsFrom_of_none hread', hbehind, List.flatMap_cons, List.length_append,
      ← Nat.add_assoc]
    rfl

private theorem starts_of_parseTags {text : Text} {tags : List DocTag}
    (h : parseTags text = .ok tags) :
    ∃ body, text = '/' :: '*' :: '*' :: body ∧
      tags.map (·.span.start) = startsFrom ⟨.indent, false⟩ 3 body := by
  obtain ⟨body, items, rfl, hscan, rfl⟩ := parseTags_eq_ok_iff.1 h
  obtain ⟨behind, hstarts⟩ := startsFrom_scan _ (.inl rfl : Agrees ⟨.indent, false⟩ _ body) 3
  refine ⟨body, rfl, ?_⟩
  rw [hstarts, hscan, startsFrom_of_none (Cursor.readTag?_of_head_ne (by simp)),
    startsFrom_of_none (Cursor.readTag?_of_head_ne (by simp)), startsFrom, List.append_nil]

private theorem mem_startsFrom {cursor : Cursor} {offset i : Nat} {text : Text} :
    i ∈ startsFrom cursor offset text ↔
      ∃ before rest, text = before ++ rest ∧ i = offset + before.length ∧
        ((before.foldl Cursor.advance cursor).readTag? rest).isSome = true := by
  induction text generalizing cursor offset with
  | nil =>
    simp only [startsFrom, List.not_mem_nil, false_iff]
    rintro ⟨before, rest, htext, -, hread⟩
    obtain ⟨rfl, rfl⟩ := List.append_eq_nil_iff.1 htext.symm
    rw [Cursor.readTag?_of_head_ne (by simp)] at hread
    cases hread
  | cons c text ih =>
    have hhere : i ∈ startsFrom cursor offset (c :: text) ↔
        i = offset ∧ (cursor.readTag? (c :: text)).isSome = true ∨
          i ∈ startsFrom (cursor.advance c) (offset + 1) text := by
      rw [startsFrom]
      split <;> simp_all
    rw [hhere, ih]
    constructor
    · rintro (⟨rfl, hread⟩ | ⟨before, rest, rfl, rfl, hread⟩)
      · exact ⟨[], c :: text, rfl, rfl, hread⟩
      · exact ⟨c :: before, rest, rfl, by rw [List.length_cons]; omega, hread⟩
    · rintro ⟨before, rest, htext, rfl, hread⟩
      cases before with
      | nil =>
        cases htext
        exact .inl ⟨rfl, hread⟩
      | cons d before =>
        cases htext
        exact .inr ⟨before, rest, rfl, by rw [List.length_cons]; omega, hread⟩

private theorem isSome_readTag?_iff {cursor : Cursor} {text : Text} :
    (cursor.readTag? text).isSome = true ↔
      cursor.admitsTag = true ∧ ∃ c rest, text = '@' :: c :: rest ∧ isNameStart c = true := by
  unfold Cursor.readTag? readTag
  split
  · rename_i hadmits
    split
    · rename_i c rest
      by_cases hc : isNameStart c = true <;> simp [hadmits, hc]
    · rename_i hother
      simp only [Option.isSome_none, Bool.false_eq_true, false_iff, not_and, not_exists]
      rintro - c rest rfl
      exact absurd rfl (hother c rest)
  · rename_i hadmits
    simp [hadmits]

section Place

/-! What the cursor says of the text before it. -/

def lastLine (before : Text) : Text := (before.reverse.takeWhile (· != '\n')).reverse

private theorem lastLine_concat (before : Text) (c : Char) :
    lastLine (before ++ [c]) = if c = '\n' then [] else lastLine before ++ [c] := by
  unfold lastLine
  rw [List.reverse_concat]
  by_cases hfeed : c = '\n'
  · rw [if_pos hfeed, List.takeWhile_cons_of_neg (by simp [hfeed])]
    rfl
  · rw [if_neg hfeed, List.takeWhile_cons_of_pos (by simp [hfeed]), List.reverse_cons]

def Indented (line : Text) : Prop := ∀ c ∈ line, isIndent c = true

def Led (line : Text) : Prop :=
  ∃ indent blanks, line = indent ++ '*' :: blanks ∧ Indented indent ∧ Indented blanks

def EndsStray (before : Text) : Prop :=
  ∃ earlier, before = earlier ++ ['@'] ∧ spaceAfter false earlier = true

private theorem indented_concat {line : Text} {c : Char} :
    Indented (line ++ [c]) ↔ Indented line ∧ isIndent c = true := by
  simp [Indented, or_imp, forall_and]

private theorem led_concat {line : Text} {c : Char} :
    Led (line ++ [c]) ↔ Led line ∧ isIndent c = true ∨ Indented line ∧ c = '*' := by
  constructor
  · rintro ⟨indent, blanks, hline, hindent, hblanks⟩
    rcases List.eq_nil_or_concat blanks with rfl | ⟨blanks, d, rfl⟩
    · obtain ⟨rfl, hc⟩ := List.append_inj' hline rfl
      cases hc
      exact .inr ⟨hindent, rfl⟩
    · rw [List.concat_eq_append] at hline hblanks
      obtain ⟨hbefore, hd⟩ := indented_concat.1 hblanks
      have hsplit : line ++ [c] = (indent ++ '*' :: blanks) ++ [d] := by
        rw [hline, List.append_assoc, List.cons_append]
      obtain ⟨rfl, hc⟩ := List.append_inj' hsplit rfl
      cases hc
      exact .inl ⟨⟨indent, blanks, rfl, hindent, hbefore⟩, hd⟩
  · rintro (⟨⟨indent, blanks, rfl, hindent, hblanks⟩, hc⟩ | ⟨hline, rfl⟩)
    · exact ⟨indent, blanks ++ [c], by simp, hindent, indented_concat.2 ⟨hblanks, hc⟩⟩
    · exact ⟨line, [], rfl, hline, fun _ h => by cases h⟩

private theorem endsStray_concat {before : Text} {c : Char} :
    EndsStray (before ++ [c]) ↔ c = '@' ∧ spaceAfter false before = true := by
  constructor
  · rintro ⟨earlier, heq, hspace⟩
    obtain ⟨rfl, hc⟩ := List.append_inj' heq rfl
    cases hc
    exact ⟨rfl, hspace⟩
  · rintro ⟨rfl, hspace⟩
    exact ⟨before, rfl, hspace⟩

private theorem spot_advance_eq_stray_iff (cursor : Cursor) (c : Char) :
    (cursor.advance c).spot = .stray ↔ c = '@' ∧ cursor.afterSpace = true := by
  unfold Cursor.advance Cursor.lineStart
  grind

private theorem spot_advance_eq_indent_iff (cursor : Cursor) {c : Char} (hfeed : c ≠ '\n') :
    (cursor.advance c).spot = .indent ↔ cursor.spot = .indent ∧ isIndent c = true := by
  unfold Cursor.advance
  grind [isIndent]

private theorem spot_advance_eq_margin_iff (cursor : Cursor) {c : Char} (hfeed : c ≠ '\n') :
    (cursor.advance c).spot = .margin ↔
      cursor.spot = .margin ∧ isIndent c = true ∨ cursor.spot = .indent ∧ c = '*' := by
  unfold Cursor.advance
  grind [isIndent]

structure Tracks (before : Text) (cursor : Cursor) : Prop where
  space : cursor.afterSpace = spaceAfter false before
  indent : cursor.spot = .indent ↔ Indented (lastLine before)
  margin : cursor.spot = .margin ↔ Led (lastLine before)
  stray : cursor.spot = .stray ↔ EndsStray before

private theorem tracks_nil : Tracks [] ⟨.indent, false⟩ where
  space := rfl
  indent := by simp [lastLine, Indented]
  margin := by simp [lastLine, Led]
  stray := by simp [EndsStray]

theorem Tracks.advance {before : Text} {cursor : Cursor} (h : Tracks before cursor) (c : Char) :
    Tracks (before ++ [c]) (cursor.advance c) where
  space := by rw [afterSpace_advance, spaceAfter_concat]
  indent := by
    rw [lastLine_concat]
    by_cases hfeed : c = '\n'
    · simp [hfeed, Cursor.advance, Cursor.lineStart, Indented]
    · rw [if_neg hfeed, indented_concat, spot_advance_eq_indent_iff cursor hfeed, h.indent]
  margin := by
    rw [lastLine_concat]
    by_cases hfeed : c = '\n'
    · simp [hfeed, Cursor.advance, Cursor.lineStart, Led]
    · rw [if_neg hfeed, led_concat, spot_advance_eq_margin_iff cursor hfeed, h.margin, h.indent]
  stray := by rw [spot_advance_eq_stray_iff, endsStray_concat, h.space]

theorem Tracks.foldl {before : Text} {cursor : Cursor} (h : Tracks before cursor) (more : Text) :
    Tracks (before ++ more) (more.foldl Cursor.advance cursor) := by
  induction more generalizing before cursor with
  | nil => rwa [List.append_nil]
  | cons c more ih =>
    have := ih (h.advance c)
    rwa [List.append_assoc] at this

theorem Tracks.admitsTag_iff {before : Text} {cursor : Cursor} (h : Tracks before cursor) :
    cursor.admitsTag = true ↔
      spaceAfter false before = true ∨ (Indented (lastLine before) ∨ Led (lastLine before)) ∨
        EndsStray before := by
  rw [← h.space, ← h.indent, ← h.margin, ← h.stray]
  unfold Cursor.admitsTag
  cases cursor.spot <;> simp

end Place

def SpaceAt (text : Text) (offset : Nat) : Prop :=
  ∃ c, text[offset]? = some c ∧ Text.isSpace c = true

/-- The part of its line before an offset, without the opening delimiter. -/
def lineBefore (text : Text) (offset : Nat) : Text := lastLine (Text.slice text 3 offset)

/-- An at-sign with the start of a name behind it, after white space, at the margin of its
line, or after an at-sign that follows white space. -/
structure TagStartsAt (text : Text) (offset : Nat) : Prop where
  sign : text[offset]? = some '@'
  name : ∃ c, text[offset + 1]? = some c ∧ isNameStart c = true
  place : SpaceAt text (offset - 1) ∨
    (Indented (lineBefore text offset) ∨ Led (lineBefore text offset)) ∨
    text[offset - 1]? = some '@' ∧ SpaceAt text (offset - 2)

section Offsets

/-! Offsets behind the opening delimiter. -/

private theorem getElem?_behind (before rest : Text) (k : Nat) :
    (['/', '*', '*'] ++ before ++ rest)[3 + before.length + k]? = rest[k]? := by
  have hlength : (['/', '*', '*'] ++ before).length = 3 + before.length := List.length_append
  rw [← hlength, List.getElem?_append_right (Nat.le_add_right _ _), Nat.add_sub_cancel_left]

private theorem getElem?_here (before rest : Text) :
    (['/', '*', '*'] ++ before ++ rest)[3 + before.length]? = rest[0]? :=
  getElem?_behind before rest 0

private theorem concat_behind (earlier rest : Text) (c : Char) :
    ['/', '*', '*'] ++ (earlier ++ [c]) ++ rest = ['/', '*', '*'] ++ earlier ++ c :: rest ∧
      3 + (earlier ++ [c]).length - 1 = 3 + earlier.length := by
  refine ⟨by simp, ?_⟩
  rw [List.length_append, List.length_singleton]
  omega

private theorem lineBefore_behind (before rest : Text) :
    lineBefore (['/', '*', '*'] ++ before ++ rest) (3 + before.length) = lastLine before := by
  unfold lineBefore Text.slice
  rw [Nat.add_sub_cancel_left, List.append_assoc]
  exact congrArg lastLine List.take_left

private theorem spaceAt_behind (before rest : Text) :
    SpaceAt (['/', '*', '*'] ++ before ++ rest) (3 + before.length - 1) ↔
      spaceAfter false before = true := by
  rcases List.eq_nil_or_concat before with rfl | ⟨earlier, c, rfl⟩
  · constructor
    · rintro ⟨c, hc, hspace⟩
      cases hc
      cases hspace
    · intro hspace
      cases hspace
  · obtain ⟨htext, hoffset⟩ := concat_behind earlier rest c
    rw [List.concat_eq_append, htext, hoffset, SpaceAt, getElem?_here, spaceAfter_concat]
    simp

private theorem endsStray_behind (before rest : Text) :
    (['/', '*', '*'] ++ before ++ rest)[3 + before.length - 1]? = some '@' ∧
        SpaceAt (['/', '*', '*'] ++ before ++ rest) (3 + before.length - 2) ↔
      EndsStray before := by
  rcases List.eq_nil_or_concat before with rfl | ⟨earlier, c, rfl⟩
  · constructor
    · rintro ⟨hat, -⟩
      cases hat
    · rintro ⟨earlier, hnil, -⟩
      simp at hnil
  · obtain ⟨htext, hoffset⟩ := concat_behind earlier rest c
    have hsecond : 3 + (earlier ++ [c]).length - 2 = 3 + earlier.length - 1 := by omega
    rw [List.concat_eq_append, endsStray_concat, htext, hoffset, hsecond, spaceAt_behind,
      getElem?_here]
    simp

private theorem tagStartsAt_behind (before rest : Text) :
    TagStartsAt (['/', '*', '*'] ++ before ++ rest) (3 + before.length) ↔
      ((before.foldl Cursor.advance ⟨.indent, false⟩).readTag? rest).isSome = true := by
  have hsign := getElem?_here before rest
  have hname := getElem?_behind before rest 1
  have hplace := (tracks_nil.foldl before).admitsTag_iff
  rw [List.nil_append, ← spaceAt_behind before rest, ← endsStray_behind before rest,
    ← lineBefore_behind before rest] at hplace
  rw [isSome_readTag?_iff, hplace]
  constructor
  · rintro ⟨hat, ⟨c, hc, hstart⟩, hadmits⟩
    have hrest := hsign.symm.trans hat
    have hnext := hname.symm.trans hc
    match rest with
    | [] => cases hrest
    | [d] => cases hnext
    | d :: e :: later =>
      cases hrest
      cases hnext
      exact ⟨hadmits, c, later, rfl, hstart⟩
  · rintro ⟨hadmits, c, later, rfl, hstart⟩
    exact ⟨hsign, ⟨c, hname, hstart⟩, hadmits⟩

end Offsets

private theorem le_of_mem_startsFrom {cursor : Cursor} {offset i : Nat} {text : Text}
    (h : i ∈ startsFrom cursor offset text) : offset ≤ i := by
  obtain ⟨before, rest, -, rfl, -⟩ := mem_startsFrom.1 h
  exact Nat.le_add_right _ _

private theorem pairwise_startsFrom (cursor : Cursor) (offset : Nat) (text : Text) :
    (startsFrom cursor offset text).Pairwise (· < ·) := by
  induction text generalizing cursor offset with
  | nil => exact .nil
  | cons c rest ih =>
    rw [startsFrom]
    split
    · exact .cons (fun _ hmem => le_of_mem_startsFrom hmem) (ih _ _)
    · exact ih _ _

/-- The tags of a comment start, in increasing order, at exactly the offsets where the
characters around them let a tag start. -/
theorem parseTags_starts {text : Text} {tags : List DocTag} (h : parseTags text = .ok tags) :
    (tags.map (·.span.start)).Pairwise (· < ·) ∧
      ∀ offset, offset ∈ tags.map (·.span.start) ↔ TagStartsAt text offset := by
  obtain ⟨body, rfl, hstarts⟩ := starts_of_parseTags h
  rw [hstarts]
  refine ⟨pairwise_startsFrom _ _ _, ?_⟩
  intro offset
  rw [mem_startsFrom]
  constructor
  · rintro ⟨before, rest, rfl, rfl, hread⟩
    exact (tagStartsAt_behind before rest).2 hread
  · intro hstart
    have hsign := hstart.sign
    match offset with
    | 0 | 1 | 2 => cases hsign
    | k + 3 =>
      have hk := (List.getElem?_eq_some_iff.1 hsign).1
      simp only [List.length_cons] at hk
      have hlength : k + 3 = 3 + (body.take k).length := by
        rw [List.length_take]
        omega
      have hsplit : body = body.take k ++ body.drop k := (List.take_append_drop k body).symm
      refine ⟨body.take k, body.drop k, hsplit, hlength, ?_⟩
      rw [← tagStartsAt_behind, ← hlength, List.append_assoc, ← hsplit]
      exact hstart

def crowdedComment : Text := "/**@a b@c @@d\n *@e {@f} */".toList

theorem parseTags_starts_crowded :
    ∃ tags, parseTags crowdedComment = .ok tags ∧ tags.map (·.span.start) = [3, 11, 16] ∧
      TagStartsAt crowdedComment 11 ∧ ¬ TagStartsAt crowdedComment 20 := by
  have hread : (parseTags crowdedComment).toOption.map (·.map (·.span.start)) =
      some [3, 11, 16] := by
    decide +kernel
  cases hparse : parseTags crowdedComment with
  | error error =>
    rw [hparse] at hread
    cases hread
  | ok tags =>
    rw [hparse] at hread
    have hstarts : tags.map (·.span.start) = [3, 11, 16] := Option.some.inj hread
    have hexact := (parseTags_starts hparse).2
    rw [hstarts] at hexact
    exact ⟨tags, rfl, hstarts, (hexact 11).1 (by decide),
      fun hstart => absurd ((hexact 20).2 hstart) (by decide)⟩

end OverrideLint.DocComment
