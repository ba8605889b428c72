import OverrideLint.Proofs.DocComment.Extent
import OverrideLint.Proofs.DocComment.TagStarts

/-! How far a tag reaches. Its name is as long as there are name characters, and its text
runs on to the first line break, closing delimiter or at-sign after white space, less the
blanks before it. -/
namespace OverrideLint.DocComment

structure FirstFrom (holds : Nat → Prop) (start offset : Nat) : Prop where
  start_le : start ≤ offset
  here : holds offset
  earliest : ∀ other, start ≤ other → holds other → offset ≤ other

/-- Running text ends at a line break, at the closing delimiter, and at an at-sign that
follows white space. -/
def RunEndsAt (text : Text) (offset : Nat) : Prop :=
  text[offset]? = some '\r' ∨ text[offset]? = some '\n' ∨ ClosesAt text offset ∨
    text[offset]? = some '@' ∧ SpaceAt text (offset - 1)

structure NamedIn (text : Text) (tag : DocTag) : Prop where
  sign : text[tag.span.start]? = some '@'
  name_start : tag.nameSpan.start = tag.span.start + 1
  name_eq : tag.name.toList = Text.slice text tag.nameSpan.start tag.nameSpan.stop
  first : ∃ c, text[tag.nameSpan.start]? = some c ∧ isNameStart c = true
  inside : ∀ offset, tag.nameSpan.start ≤ offset → offset < tag.nameSpan.stop →
    ∃ c, text[offset]? = some c ∧ isNameChar c = true
  longest : ∀ c, text[tag.nameSpan.stop]? = some c → isNameChar c = false

/-- A tag ends with its text up to where running text ends, without the blanks there. -/
def EndsTrimmed (text : Text) (tag : DocTag) : Prop :=
  ∃ stop, FirstFrom (RunEndsAt text) tag.nameSpan.stop stop ∧
    tag.span.stop =
      tag.nameSpan.stop + (Text.trimRight (Text.slice text tag.nameSpan.stop stop)).length

structure Enclosed (text : Text) (tag : DocTag) : Prop where
  line : ∀ offset, tag.span.start ≤ offset → offset < tag.span.stop →
    text[offset]? ≠ some '\r' ∧ text[offset]? ≠ some '\n' ∧ ¬ ClosesAt text offset
  close : tag.span.stop + 2 ≤ text.length

section Runs

private theorem runEndsAt_behind (front : Text) (before c : Char) (rest : Text) :
    RunEndsAt (front ++ before :: c :: rest) (front.length + 1) ↔
      c = '\r' ∨ c = '\n' ∨ (c = '@' ∧ Text.isSpace before = true) ∨
        (c = '*' ∧ rest.head? = some '/') := by
  have hbefore : (front ++ before :: c :: rest)[front.length]? = some before := by simp
  have hhere : (front ++ before :: c :: rest)[front.length + 1]? = some c := by simp
  have hnext : (front ++ before :: c :: rest)[front.length + 1 + 1]? = rest.head? := by
    rw [Nat.add_assoc, List.getElem?_append_right (Nat.le_add_right _ _),
      Nat.add_sub_cancel_left, List.head?_eq_getElem?]
    rfl
  simp only [RunEndsAt, ClosesAt, SpaceAt, hhere, hnext, Nat.add_sub_cancel, hbefore,
    Option.some.injEq, exists_eq_left']
  grind

private theorem splitRun_reach {afterSpace : Bool} {before : Char} (front text : Text)
    (hspace : afterSpace = Text.isSpace before) :
    (∀ offset, front.length + 1 ≤ offset →
        offset < front.length + 1 + (splitRun afterSpace text).1.length →
        ¬ RunEndsAt (front ++ before :: text) offset) ∧
      ((splitRun afterSpace text).2 ≠ [] →
        RunEndsAt (front ++ before :: text)
          (front.length + 1 + (splitRun afterSpace text).1.length)) := by
  fun_induction splitRun afterSpace text generalizing front before with
  | case1 => exact ⟨fun offset hge hlt => absurd hlt (Nat.not_lt.2 hge), (absurd rfl ·)⟩
  | case2 afterSpace c rest hc =>
    refine ⟨fun offset hge hlt => absurd hlt (Nat.not_lt.2 hge), fun _ => ?_⟩
    rw [hspace] at hc
    exact (runEndsAt_behind front before c rest).2 hc
  | case3 afterSpace c rest hc more =>
    rename_i ih
    obtain ⟨hinside, hend⟩ := ih (front ++ [before]) rfl
    rw [List.length_append, List.length_singleton, List.append_assoc, List.singleton_append]
      at hinside hend
    have hlength : front.length + 1 + (c :: more.1).length =
        front.length + 1 + 1 + more.1.length := by
      rw [List.length_cons]
      omega
    rw [hlength]
    refine ⟨?_, hend⟩
    intro offset hge hlt
    rcases Nat.eq_or_lt_of_le hge with rfl | hlater
    · rw [runEndsAt_behind, ← hspace]
      exact hc
    · exact hinside offset hlater hlt

end Runs

section Tags

private theorem exists_readTag_of_mem {cursor : Cursor} {text : Text} {offset : Nat} {tag : DocTag}
    (h : tag ∈ itemTags offset (scan cursor text).1) :
    ∃ before rest name run after, text = before ++ rest ∧
      readTag rest = some (name, run, after) ∧
      tag = DocTag.ofSegment (offset + before.length) name run ∧
      (scan .afterRun after).2 = (scan cursor text).2 := by
  fun_induction scan cursor text generalizing offset with
  | case1 cursor text name run after hread more =>
    rename_i ih
    have htag := (Cursor.readTag_of_readTag? hread).2
    rcases List.mem_cons.1 h with rfl | hlater
    · exact ⟨[], text, name, run, after, rfl, htag, rfl, rfl⟩
    · obtain ⟨before, rest, name', run', after', hafter, hrest, rfl, hend⟩ := ih hlater
      refine ⟨(Item.tag name run).render ++ before, rest, name', run', after', ?_, hrest, ?_, hend⟩
      · rw [List.append_assoc, ← hafter]
        exact (readTag_append htag).symm
      · rw [List.length_append, Nat.add_assoc]
  | case2 cursor hread => cases h
  | case3 cursor c rest hread hstops => cases h
  | case4 cursor c rest hread hstops more =>
    rename_i ih
    obtain ⟨before, later, name, run, after, rfl, hlater, rfl, hend⟩ := ih h
    refine ⟨c :: before, later, name, run, after, rfl, hlater, ?_, hend⟩
    rw [List.length_cons, Nat.add_assoc, Nat.add_comm 1]

variable {name run after : Text}

theorem isNameChar_of_mem_isName {c : Char} (hname : isName name = true) (hc : c ∈ name) :
    isNameChar c = true := by
  cases name with
  | nil => cases hc
  | cons d name =>
    obtain ⟨hstart, hrest⟩ := Bool.and_eq_true_iff.1 hname
    rcases List.mem_cons.1 hc with rfl | hc
    · exact isNameChar_of_isNameStart hstart
    · exact List.all_eq_true.1 hrest c hc

private theorem namedIn_ofSegment (front : Text)
    (h : readTag ('@' :: name ++ run ++ after) = some (name, run, after)) :
    NamedIn (front ++ ('@' :: name ++ run ++ after))
      (DocTag.ofSegment front.length name run) := by
  obtain ⟨hname, -, hends⟩ := isName_of_readTag h
  have hdrop : (front ++ ('@' :: name ++ run ++ after)).drop front.length =
      (Item.tag name run).render ++ after := List.drop_left
  obtain ⟨hsign, hslice⟩ := standsIn_ofSegment hdrop
  have hchar (k : Nat) : (front ++ ('@' :: name ++ run ++ after))[front.length + 1 + k]? =
      (name ++ (run ++ after))[k]? := by
    rw [Nat.add_assoc, List.getElem?_append_right (Nat.le_add_right _ _),
      Nat.add_sub_cancel_left, Nat.add_comm 1, List.append_assoc, List.cons_append,
      List.getElem?_cons_succ]
  refine ⟨hsign, rfl, hslice.symm, ?_, ?_, ?_⟩
  · cases name with
    | nil => cases hname
    | cons c name =>
      exact ⟨c, hchar 0, (Bool.and_eq_true_iff.1 hname).1⟩
  · intro offset hge hlt
    obtain ⟨k, rfl⟩ := Nat.exists_eq_add_of_le hge
    have hk : k < name.length := Nat.lt_of_add_lt_add_left hlt
    refine ⟨name[k], ?_, isNameChar_of_mem_isName hname (List.getElem_mem hk)⟩
    exact (hchar k).trans (by rw [List.getElem?_append_left hk, List.getElem?_eq_getElem hk])
  · intro c hc
    have hbehind := (hchar name.length).symm.trans hc
    rw [List.getElem?_append_right (Nat.le_refl _), Nat.sub_self,
      ← List.head?_eq_getElem?] at hbehind
    exact hends c hbehind

private theorem firstFrom_ofSegment (front : Text)
    (h : readTag ('@' :: name ++ run ++ after) = some (name, run, after)) (hafter : after ≠ []) :
    FirstFrom (RunEndsAt (front ++ ('@' :: name ++ run ++ after)))
      (front.length + 1 + name.length) (front.length + 1 + name.length + run.length) := by
  obtain ⟨hname, hrun, -⟩ := isName_of_readTag h
  rcases List.eq_nil_or_concat name with rfl | ⟨init, last, rfl⟩
  · cases hname
  rw [List.concat_eq_append] at hname ⊢
  have hlast : Text.isSpace last = false := isSpace_of_isNameChar
    (isNameChar_of_mem_isName hname (List.mem_append_right _ (List.mem_singleton_self last)))
  have htext : front ++ ('@' :: (init ++ [last]) ++ run ++ after) =
      (front ++ '@' :: init) ++ last :: (run ++ after) := by simp
  have hlength : front.length + 1 + (init ++ [last]).length = (front ++ '@' :: init).length + 1 := by
    simp only [List.length_append, List.length_cons, List.length_nil]
    omega
  obtain ⟨hinside, hend⟩ := splitRun_reach (front ++ '@' :: init) (run ++ after) hlast.symm
  rw [hrun] at hinside hend
  rw [htext, hlength]
  refine ⟨Nat.le_add_right _ _, hend hafter, ?_⟩
  intro other hge hother
  rw [← Nat.not_lt]
  exact fun hlt => hinside other hge hlt hother

private theorem endsTrimmed_ofSegment (front : Text)
    (h : readTag ('@' :: name ++ run ++ after) = some (name, run, after)) (hafter : after ≠ []) :
    EndsTrimmed (front ++ ('@' :: name ++ run ++ after))
      (DocTag.ofSegment front.length name run) := by
  have hslice : Text.slice (front ++ ('@' :: name ++ run ++ after))
      (front.length + 1 + name.length) (front.length + 1 + name.length + run.length) = run := by
    have hdrop : (front ++ ('@' :: name ++ run ++ after)).drop (front.length + 1 + name.length) =
        run ++ after := by
      rw [Nat.add_assoc, ← List.drop_drop, List.drop_left, Nat.add_comm 1, List.append_assoc,
        List.cons_append, List.drop_succ_cons, List.drop_left]
    rw [Text.slice, hdrop, Nat.add_sub_cancel_left, List.take_left]
  refine ⟨_, firstFrom_ofSegment front h hafter, ?_⟩
  change _ = front.length + 1 + name.length + _
  rw [show (DocTag.ofSegment front.length name run).nameSpan.stop =
    front.length + 1 + name.length from rfl, hslice]
  rfl

private theorem enclosed_of_namedIn {text : Text} {tag : DocTag} (hnamed : NamedIn text tag)
    (hends : EndsTrimmed text tag) (hclose : tag.span.stop + 2 ≤ text.length) :
    Enclosed text tag := by
  refine ⟨?_, hclose⟩
  intro offset hge hlt
  have hplain {c : Char} (hc : text[offset]? = some c) (hne : c ≠ '\r' ∧ c ≠ '\n' ∧ c ≠ '*') :
      text[offset]? ≠ some '\r' ∧ text[offset]? ≠ some '\n' ∧ ¬ ClosesAt text offset := by
    simp [ClosesAt, hc, hne]
  by_cases hname : offset < tag.nameSpan.stop
  · rcases Nat.eq_or_lt_of_le hge with rfl | hbehind
    · exact hplain hnamed.sign (by decide)
    · obtain ⟨c, hc, hchar⟩ := hnamed.inside offset (hnamed.name_start ▸ hbehind) hname
      exact hplain hc ⟨ne_of_isNameChar hchar (by decide), ne_of_isNameChar hchar (by decide),
        ne_of_isNameChar hchar (by decide)⟩
  · obtain ⟨stop, hfirst, hstop⟩ := hends
    have hrun : ¬ RunEndsAt text offset := by
      intro hend
      have hle := hfirst.earliest offset (Nat.le_of_not_lt hname) hend
      have htrim := Text.length_trimRight_le (Text.slice text tag.nameSpan.stop stop)
      rw [Text.length_slice] at htrim
      omega
    refine ⟨fun hreturn => hrun (.inl hreturn), fun hfeed => hrun (.inr (.inl hfeed)),
      fun hcloses => hrun (.inr (.inr (.inl hcloses)))⟩

end Tags

/-- The extent of every tag of a comment can be told from the text: the longest name behind
an at-sign, and what follows it up to the end of running text. So tags lie one behind the
other, each on one line and before the closing delimiter. -/
theorem parseTags_extents {text : Text} {tags : List DocTag} (h : parseTags text = .ok tags) :
    (∀ tag ∈ tags, NamedIn text tag ∧ EndsTrimmed text tag ∧ Enclosed text tag) ∧
      tags.Pairwise fun a b => a.span.stop ≤ b.span.start := by
  obtain ⟨items, hreads, rfl⟩ := parseTags_eq_ok_iff_reads.1 h
  refine ⟨?_, pairwise_itemTags 3 items⟩
  intro tag hmem
  have hclose : tag.span.stop + 2 ≤ text.length := by
    have hwithin := (itemTags_within hmem).2
    rw [hreads.text_eq]
    simp only [List.length_append, List.length_cons, List.length_nil]
    omega
  have hscan := hreads.scan_eq
  have hfound : tag ∈ itemTags 3
      (scan ⟨.indent, false⟩ (items.flatMap Item.render ++ ['*', '/'])).1 := by
    rwa [hscan]
  obtain ⟨before, rest, name, run, after, hbody, hread, rfl, hend⟩ := exists_readTag_of_mem hfound
  have hafter : after ≠ [] := by
    rintro rfl
    rw [scan_nil, hscan] at hend
    cases hend
  have htext : text = ['/', '*', '*'] ++ before ++ ('@' :: name ++ run ++ after) := by
    rw [hreads.text_eq, hbody, readTag_append hread, List.append_assoc]
  have hlength : (['/', '*', '*'] ++ before).length = 3 + before.length := List.length_append
  rw [← readTag_append hread] at hread
  rw [htext, ← hlength] at hclose ⊢
  have hnamed := namedIn_ofSegment (['/', '*', '*'] ++ before) hread
  have hends := endsTrimmed_ofSegment (['/', '*', '*'] ++ before) hread hafter
  exact ⟨hnamed, hends, enclosed_of_namedIn hnamed hends hclose⟩

/-- An information separator is trimmed and yet no white space: the at-sign behind the first
one is text of the first tag, which ends before the second one. -/
def separatedComment : Text := "/**@a.b x\x1c@c \x1c @d-\n * @e*/".toList

theorem parseTags_extents_separated :
    ∃ tags, parseTags separatedComment = .ok tags ∧
      tags.map (fun tag => (tag.span.start, tag.nameSpan.stop, tag.span.stop)) =
        [(3, 7, 12), (15, 18, 18), (22, 24, 24)] ∧
      ∀ tag ∈ tags, NamedIn separatedComment tag ∧ EndsTrimmed separatedComment tag ∧
        Enclosed separatedComment tag := by
  have hread : (parseTags separatedComment).toOption.map
      (·.map fun tag => (tag.span.start, tag.nameSpan.stop, tag.span.stop)) =
        some [(3, 7, 12), (15, 18, 18), (22, 24, 24)] := by
    decide +kernel
  cases hparse : parseTags separatedComment with
  | error error =>
    rw [hparse] at hread
    cases hread
  | ok tags =>
    rw [hparse] at hread
    exact ⟨tags, rfl, Option.some.inj hread, (parseTags_extents hparse).1⟩

end OverrideLint.DocComment
