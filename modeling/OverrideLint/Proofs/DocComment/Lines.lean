import OverrideLint.Proofs.DocComment.Scan

/-! Reading a comment by lines and segments finds the same tags as the scan, and stops at
the same place. -/
namespace OverrideLint.DocComment

theorem isIndent_iff {c : Char} : isIndent c = true ↔ c = ' ' ∨ c = '\t' := by
  simp [isIndent]

private theorem scan_blanks {spot : Spot} (hspot : spot = .indent ∨ spot = .margin)
    (afterSpace : Bool) (text : Text) :
    scan ⟨spot, afterSpace⟩ text =
      ((text.takeWhile isIndent).map Item.char ++
          (scan ⟨spot, spaceAfter afterSpace (text.takeWhile isIndent)⟩
            (text.dropWhile isIndent)).1,
        (scan ⟨spot, spaceAfter afterSpace (text.takeWhile isIndent)⟩
          (text.dropWhile isIndent)).2) := by
  induction text generalizing afterSpace with
  | nil => rfl
  | cons c rest ih =>
    by_cases hc : isIndent c = true
    · have hread : Cursor.readTag? ⟨spot, afterSpace⟩ (c :: rest) = none := by
        apply Cursor.readTag?_of_head_ne
        rintro ⟨⟩
        simp [isIndent] at hc
      have hstops : stops c rest = false := by
        rcases isIndent_iff.1 hc with rfl | rfl <;> simp [stops]
      have hadvance : Cursor.advance ⟨spot, afterSpace⟩ c = ⟨spot, Text.isSpace c⟩ := by
        rcases hspot with rfl | rfl <;> rcases isIndent_iff.1 hc with rfl | rfl <;> rfl
      rw [scan_of_char hread hstops, hadvance, ih, List.takeWhile_cons_of_pos hc,
        List.dropWhile_cons_of_pos hc]
      rfl
    · rw [List.takeWhile_cons_of_neg hc, List.dropWhile_cons_of_neg hc]
      rfl

/-- The reader stands where segments start: what comes next is neither indentation nor a
leader. -/
private def atSegments (cursor : Cursor) : Text → Prop
  | [] => True
  | c :: rest => match cursor.spot with
    | .indent => isIndent c = false ∧ (c = '*' → rest.head? = some '/')
    | .margin => isIndent c = false
    | _ => True

private theorem advance_of_atSegments {cursor : Cursor} {c : Char} {rest : Text}
    (h : atSegments cursor (c :: rest)) (hstops : stops c rest = false) (hfeed : c ≠ '\n')
    (hat : c = '@' → cursor.afterSpace = false) :
    cursor.advance c = ⟨.inside, Text.isSpace c⟩ := by
  have hstar : c = '*' → rest.head? ≠ some '/' := by
    rintro rfl hnext
    simp [stops, hnext] at hstops
  unfold Cursor.advance
  rw [if_neg hfeed, if_neg (by grind)]
  obtain ⟨spot, afterSpace⟩ := cursor
  cases spot with
  | indent =>
    have hindent : isIndent c = false := h.1
    simp only [hindent, Bool.false_eq_true, if_false]
    exact if_neg fun hc => hstar hc (h.2 hc)
  | margin =>
    have hindent : isIndent c = false := h
    simp [hindent]
  | stray => rfl
  | inside => rfl

private theorem head_of_dropWhile {p : Char → Bool} {text : Text} {c : Char} {rest : Text}
    (h : text.dropWhile p = c :: rest) : p c = false := by
  have := List.head?_dropWhile_not p text
  simpa [h] using this

private theorem atSegments_readLeader (afterSpace : Bool) (text : Text) :
    ∃ cursor : Cursor, cursor.admitsTag = true ∧
      cursor.afterSpace = spaceAfter afterSpace (readLeader (text.dropWhile isIndent)).1 ∧
      atSegments cursor (readLeader (text.dropWhile isIndent)).2 ∧
      scan ⟨.indent, afterSpace⟩ (text.dropWhile isIndent) =
        ((readLeader (text.dropWhile isIndent)).1.map Item.char ++
            (scan cursor (readLeader (text.dropWhile isIndent)).2).1,
          (scan cursor (readLeader (text.dropWhile isIndent)).2).2) := by
  generalize hline : text.dropWhile isIndent = line
  fun_cases readLeader line with
  | case1 rest hnext =>
    exact ⟨⟨.indent, afterSpace⟩, rfl, rfl, ⟨rfl, fun _ => hnext⟩, rfl⟩
  | case2 rest hnext =>
    have hread : Cursor.readTag? ⟨.indent, afterSpace⟩ ('*' :: rest) = none :=
      Cursor.readTag?_of_head_ne (by simp)
    have hstops : stops '*' rest = false := by simp [stops, hnext]
    refine ⟨⟨.margin, spaceAfter false (rest.takeWhile isIndent)⟩, rfl, rfl, ?_, ?_⟩
    · cases hrest : rest.dropWhile isIndent with
      | nil => trivial
      | cons c later => exact head_of_dropWhile hrest
    · rw [scan_of_char hread hstops]
      show (Item.char '*' :: (scan ⟨.margin, false⟩ rest).1, (scan ⟨.margin, false⟩ rest).2) = _
      rw [scan_blanks (.inr rfl)]
      rfl
  | case3 line hstar =>
    refine ⟨⟨.indent, afterSpace⟩, rfl, rfl, ?_, rfl⟩
    cases line with
    | nil => trivial
    | cons c rest =>
      refine ⟨head_of_dropWhile hline, ?_⟩
      rintro rfl
      exact absurd rfl (hstar rest)

private theorem atSegments_inside {cursor : Cursor} (text : Text)
    (h : cursor.spot = .inside ∨ cursor.spot = .stray) : atSegments cursor text := by
  cases text with
  | nil => trivial
  | cons c rest => rcases h with h | h <;> simp [atSegments, h]

theorem splitRun_cons {afterSpace : Bool} {text run after : Text} {c : Char}
    (h : splitRun afterSpace text = (c :: run, after)) :
    ∃ rest, text = c :: rest ∧ splitRun (Text.isSpace c) rest = (run, after) ∧
      ¬ (c = '\r' ∨ c = '\n' ∨ (c = '@' ∧ afterSpace = true) ∨
        (c = '*' ∧ rest.head? = some '/')) := by
  cases text with
  | nil => cases h
  | cons d rest =>
    rw [splitRun] at h
    split at h
    · cases h
    · rename_i hd
      cases h
      exact ⟨rest, rfl, rfl, hd⟩

private theorem scan_segments (cursor : Cursor) {afterSpace : Bool} {text : Text}
    (hspace : cursor.afterSpace = afterSpace) (hadmits : cursor.admitsTag = true)
    (hplace : atSegments cursor text) (offset : Nat) :
    itemTags offset (scan cursor text).1 =
        segmentTags offset (readSegments afterSpace text).1 ++
          itemTags (offset + ((readSegments afterSpace text).1.flatMap Segment.render).length)
            (scan .afterRun (readSegments afterSpace text).2).1 ∧
      (scan cursor text).2 = (scan .afterRun (readSegments afterSpace text).2).2 ∧
      atLineEnd (readSegments afterSpace text).2 = true := by
  fun_induction readSegments afterSpace text generalizing cursor offset with
  | case1 afterSpace text name run after htag more =>
    rename_i ih
    have hread : cursor.readTag? text = some (name, run, after) := by
      rw [Cursor.readTag?, if_pos hadmits, htag]
    obtain ⟨htags, hrest, hend⟩ := ih .afterRun rfl rfl (atSegments_inside after (.inl rfl))
      (offset + (Segment.tag name run).render.length)
    rw [scan_of_tag hread]
    refine ⟨?_, hrest, hend⟩
    simp only [itemTags, segmentTags, List.flatMap_cons, List.length_append, ← Nat.add_assoc,
      List.cons_append]
    exact congrArg (_ :: ·) htags
  | case2 afterSpace text htag c run after hrun more =>
    rename_i ih
    obtain ⟨rest, rfl, hmore, hgo⟩ := splitRun_cons hrun
    have hread : cursor.readTag? (c :: rest) = none := by
      rw [Cursor.readTag?, htag, ite_self]
    have hstops := stops_of_mem_run hgo
    have hadvance : cursor.advance c = ⟨.inside, Text.isSpace c⟩ :=
      advance_of_atSegments hplace hstops (by grind) (by grind)
    obtain ⟨htags, hrest, hend⟩ := ih .afterRun rfl rfl (atSegments_inside after (.inl rfl))
      (offset + (c :: run).length)
    have hscan := scan_run (Text.isSpace c) rest
    rw [hmore] at hscan
    rw [scan_of_char hread hstops, hadvance, hscan]
    refine ⟨?_, hrest, hend⟩
    simp only [segmentTags, List.flatMap_cons, List.length_append, ← Nat.add_assoc]
    rw [itemTags, itemTags_chars, Nat.add_assoc, Nat.add_comm 1, ← List.length_cons]
    exact htags
  | case3 afterSpace text htag after hrun more =>
    rename_i ih
    have htext : text = '@' :: after := by simpa [hrun] using (splitRun_append afterSpace text).symm
    subst htext
    have hafterSpace : afterSpace = true := by
      have hafter := splitRun_after afterSpace ('@' :: after)
      rw [hrun] at hafter
      rcases hafter with hend | ⟨-, hspace⟩
      · simp [atLineEnd] at hend
      · exact hspace
    have hread : cursor.readTag? ('@' :: after) = none := by
      rw [Cursor.readTag?, htag, ite_self]
    have hadvance : cursor.advance '@' = ⟨.stray, false⟩ := by
      simp [Cursor.advance, hspace, hafterSpace]
    obtain ⟨htags, hrest, hend⟩ := ih ⟨.stray, false⟩ rfl rfl (atSegments_inside after (.inr rfl))
      (offset + 1)
    rw [scan_of_char hread (by simp [stops]), hadvance]
    refine ⟨?_, hrest, hend⟩
    simp only [segmentTags, List.flatMap_cons, List.length_append, ← Nat.add_assoc]
    rw [itemTags]
    exact htags
  | case4 afterSpace text htag after hne hrun =>
    have htext : text = after := by simpa [hrun] using (splitRun_append afterSpace text).symm
    subst htext
    have hend : atLineEnd text = true := by
      rcases splitRun_after afterSpace text with hend | ⟨hhead, _⟩
      · simpa [hrun] using hend
      · rw [hrun] at hhead
        cases text with
        | nil => cases hhead
        | cons c rest => exact absurd (by simpa using hhead) (hne rest)
    rw [scan_of_atLineEnd hend cursor .afterRun]
    exact ⟨rfl, rfl, hend⟩

private theorem scan_lineBreak {text : Text} (hend : atLineEnd text = true) (cursor : Cursor) :
    (readLineBreak text).1 = [] ∧ scan cursor text = ([], text) ∧ (readLineBreak text).2 = text ∨
      (readLineBreak text).1 ≠ [] ∧
        scan cursor text =
          ((readLineBreak text).1.map Item.char ++ (scan .lineStart (readLineBreak text).2).1,
            (scan .lineStart (readLineBreak text).2).2) := by
  have hfeed (cursor : Cursor) (rest : Text) : scan cursor ('\n' :: rest) =
      (Item.char '\n' :: (scan .lineStart rest).1, (scan .lineStart rest).2) :=
    scan_of_char (Cursor.readTag?_of_head_ne (by simp)) (by simp [stops])
  fun_cases readLineBreak text with
  | case1 rest => exact .inr ⟨by simp, hfeed cursor rest⟩
  | case2 rest =>
    refine .inr ⟨by simp, ?_⟩
    rw [scan_of_char (Cursor.readTag?_of_head_ne (by simp)) (by simp [stops]), hfeed]
    rfl
  | case3 text hfeed hreturn =>
    refine .inl ⟨rfl, ?_, rfl⟩
    cases text with
    | nil => exact scan_nil cursor
    | cons c rest =>
      apply scan_of_stops
      simp only [atLineEnd, Bool.or_eq_true, Bool.and_eq_true, beq_iff_eq] at hend
      rcases hend with (rfl | rfl) | ⟨rfl, hnext⟩
      · exact absurd rfl (hfeed rest)
      · cases rest with
        | nil => rfl
        | cons d later =>
          have hd : d ≠ '\n' := by
            rintro rfl
            exact hreturn later rfl
          simp [stops, hd]
      · simp [stops, hnext]

private theorem scan_line (afterSpace : Bool) (text : Text) (offset : Nat) :
    ∃ rest, atLineEnd rest = true ∧
      readLineBreak rest = ((readLine afterSpace text).1.ending, (readLine afterSpace text).2) ∧
      (scan ⟨.indent, afterSpace⟩ text).2 = (scan .afterRun rest).2 ∧
      itemTags offset (scan ⟨.indent, afterSpace⟩ text).1 =
        segmentTags (offset + ((readLine afterSpace text).1.indent ++
            (readLine afterSpace text).1.leader).length) (readLine afterSpace text).1.segments ++
          itemTags (offset + ((readLine afterSpace text).1.indent ++
            (readLine afterSpace text).1.leader ++
              (readLine afterSpace text).1.segments.flatMap Segment.render).length)
            (scan .afterRun rest).1 := by
  obtain ⟨cursor, hadmits, hspace, hplace, hscan⟩ :=
    atSegments_readLeader (spaceAfter afterSpace (text.takeWhile isIndent)) text
  have hbefore : spaceBefore afterSpace (text.takeWhile isIndent)
      (readLeader (text.dropWhile isIndent)).1 = cursor.afterSpace := by
    rw [spaceBefore_eq, spaceAfter_append, hspace]
  obtain ⟨htags, hrest, hend⟩ := scan_segments _ rfl hadmits hplace
    (offset + (text.takeWhile isIndent ++ (readLeader (text.dropWhile isIndent)).1).length)
  refine ⟨(readSegments cursor.afterSpace (readLeader (text.dropWhile isIndent)).2).2, hend,
    ?_, ?_, ?_⟩
  · rw [readLine, hbefore]
  · rw [scan_blanks (.inl rfl), hscan]
    exact hrest
  · rw [scan_blanks (.inl rfl), hscan, itemTags_chars, itemTags_chars, Nat.add_assoc,
      ← List.length_append, htags, readLine, hbefore, Nat.add_assoc, ← List.length_append]

/-- Reading by lines and scanning find the same tags and the same end. -/
theorem scan_lines (afterSpace : Bool) (text : Text) (offset : Nat) :
    itemTags offset (scan ⟨.indent, afterSpace⟩ text).1 =
        lineTags offset (readLines afterSpace text).1 ∧
      (scan ⟨.indent, afterSpace⟩ text).2 = (readLines afterSpace text).2 := by
  fun_induction readLines afterSpace text generalizing offset with
  | case1 afterSpace text first hend =>
    obtain ⟨rest, hline, hbreak, hrest, htags⟩ := scan_line afterSpace text offset
    have hfirst : (readLineBreak rest).1 = [] := by rw [hbreak]; exact hend
    rcases scan_lineBreak hline .afterRun with ⟨_, hscan, hsame⟩ | ⟨hne, _⟩
    · rw [htags, hrest, hscan, lineTags, lineTags, itemTags]
      exact ⟨rfl, hsame.symm.trans (congrArg Prod.snd hbreak)⟩
    · exact absurd hfirst hne
  | case2 afterSpace text first hend more =>
    rename_i ih
    obtain ⟨rest, hline, hbreak, hrest, htags⟩ := scan_line afterSpace text offset
    rcases scan_lineBreak hline .afterRun with ⟨hnone, _⟩ | ⟨_, hscan⟩
    · rw [hbreak] at hnone
      exact absurd hnone hend
    · obtain ⟨htail, hlast⟩ := ih (offset + first.1.render.length)
      rw [hbreak] at hscan
      rw [htags, hrest, hscan, lineTags, itemTags_chars]
      refine ⟨?_, hlast⟩
      rw [Nat.add_assoc, ← List.length_append]
      exact congrArg (_ ++ ·) htail

theorem parseTags_eq_ok_iff {text : Text} {tags : List DocTag} :
    parseTags text = .ok tags ↔
      ∃ body items, text = '/' :: '*' :: '*' :: body ∧
        scan ⟨.indent, false⟩ body = (items, ['*', '/']) ∧ tags = itemTags 3 items := by
  constructor
  · intro h
    unfold parseTags parse at h
    split at h
    · rename_i body
      obtain ⟨htags, hrest⟩ := scan_lines false body 3
      split at h
      · rename_i lines hlines
        rw [hlines] at htags hrest
        refine ⟨body, (scan ⟨.indent, false⟩ body).1, rfl, ?_, ?_⟩
        · exact Prod.ext rfl hrest
        · rw [htags]
          exact (Except.ok.inj h).symm
      · cases h
      · cases h
    · cases h
  · rintro ⟨body, items, rfl, hscan, rfl⟩
    obtain ⟨htags, hrest⟩ := scan_lines false body 3
    rw [hscan] at htags hrest
    obtain ⟨lines, hlines⟩ : ∃ lines, readLines false body = (lines, ['*', '/']) :=
      ⟨_, Prod.ext rfl hrest.symm⟩
    rw [hlines] at htags
    unfold parseTags parse
    simp only [hlines]
    exact congrArg Except.ok htags.symm

end OverrideLint.DocComment
