import OverrideLint.DocComment.Basic

/-! A comment read one character at a time. Where the reader stands on the line decides
whether a tag may start, so the tags of a comment follow from a scan that knows of no
segments and no lines. -/
namespace OverrideLint.DocComment

inductive Spot
  | indent
  | margin
  | stray
  | inside
deriving DecidableEq

structure Cursor where
  spot : Spot
  afterSpace : Bool
deriving DecidableEq

namespace Cursor

def lineStart : Cursor := ⟨.indent, true⟩

def afterRun : Cursor := ⟨.inside, true⟩

def admitsTag (cursor : Cursor) : Bool := cursor.spot != .inside || cursor.afterSpace

def advance (cursor : Cursor) (c : Char) : Cursor :=
  if c = '\n' then lineStart
  else if c = '@' ∧ cursor.afterSpace = true then ⟨.stray, false⟩
  else match cursor.spot with
    | .indent =>
      if isIndent c then ⟨.indent, true⟩
      else if c = '*' then ⟨.margin, false⟩
      else ⟨.inside, Text.isSpace c⟩
    | .margin => if isIndent c then ⟨.margin, true⟩ else ⟨.inside, Text.isSpace c⟩
    | _ => ⟨.inside, Text.isSpace c⟩

def readTag? (cursor : Cursor) (text : Text) : Option (Text × Text × Text) :=
  if cursor.admitsTag then readTag text else none

end Cursor

/-- A comment ends before its closing delimiter, or before a carriage return on its own. -/
def stops (c : Char) (rest : Text) : Bool :=
  (c == '*' && rest.head? == some '/') || (c == '\r' && rest.head? != some '\n')

inductive Item
  | char (c : Char)
  | tag (name run : Text)
deriving DecidableEq

def Item.render : Item → Text
  | char c => [c]
  | tag name run => '@' :: name ++ run

def scan (cursor : Cursor) (text : Text) : List Item × Text :=
  match _htag : cursor.readTag? text with
  | some (name, run, after) =>
    let more := scan .afterRun after
    (.tag name run :: more.1, more.2)
  | none =>
    match text with
    | [] => ([], [])
    | c :: rest =>
      if stops c rest then ([], c :: rest)
      else
        let more := scan (cursor.advance c) rest
        (.char c :: more.1, more.2)
termination_by text.length
decreasing_by
  · have hread : readTag text = some (name, run, after) := by
      unfold Cursor.readTag? at _htag
      split at _htag
      · exact _htag
      · cases _htag
    have := congrArg List.length (readTag_append hread)
    simp at this
    omega
  · simp

def itemTags (offset : Nat) : List Item → List DocTag
  | [] => []
  | .char _ :: rest => itemTags (offset + 1) rest
  | .tag name run :: rest =>
    DocTag.ofSegment offset name run ::
      itemTags (offset + (Item.tag name run).render.length) rest

theorem itemTags_chars (offset : Nat) (chars : Text) (items : List Item) :
    itemTags offset (chars.map Item.char ++ items) = itemTags (offset + chars.length) items := by
  induction chars generalizing offset with
  | nil => rfl
  | cons c chars ih =>
    rw [List.map_cons, List.cons_append, itemTags, ih, List.length_cons, Nat.add_assoc,
      Nat.add_comm 1]

theorem readTag_head {text name run after : Text} (h : readTag text = some (name, run, after)) :
    text.head? = some '@' := by
  rw [← readTag_append h]
  rfl

theorem Cursor.readTag?_of_head_ne {cursor : Cursor} {text : Text} (h : text.head? ≠ some '@') :
    cursor.readTag? text = none := by
  unfold readTag?
  split
  · cases hread : readTag text with
    | none => rfl
    | some parts => exact absurd (readTag_head hread) h
  · rfl

theorem Cursor.readTag_of_readTag? {cursor : Cursor} {text : Text} {parts : Text × Text × Text}
    (h : cursor.readTag? text = some parts) :
    cursor.admitsTag = true ∧ readTag text = some parts := by
  unfold readTag? at h
  split at h
  · exact ⟨‹_›, h⟩
  · cases h

theorem scan_of_tag {cursor : Cursor} {text name run after : Text}
    (h : cursor.readTag? text = some (name, run, after)) :
    scan cursor text = (.tag name run :: (scan .afterRun after).1, (scan .afterRun after).2) := by
  rw [scan]
  split
  · rename_i heq
    cases h.symm.trans heq
    rfl
  · rename_i heq
    cases h.symm.trans heq

theorem scan_nil (cursor : Cursor) : scan cursor [] = ([], []) := by
  rw [scan]
  split
  · rename_i heq
    rw [Cursor.readTag?_of_head_ne (by simp)] at heq
    cases heq
  · rfl

theorem scan_of_stops {cursor : Cursor} {c : Char} {rest : Text} (h : stops c rest = true) :
    scan cursor (c :: rest) = ([], c :: rest) := by
  have hread : cursor.readTag? (c :: rest) = none := by
    apply Cursor.readTag?_of_head_ne
    rintro ⟨⟩
    simp [stops] at h
  rw [scan]
  split
  · rename_i heq
    cases hread.symm.trans heq
  · exact if_pos h

theorem scan_of_char {cursor : Cursor} {c : Char} {rest : Text}
    (hread : cursor.readTag? (c :: rest) = none) (hstops : stops c rest = false) :
    scan cursor (c :: rest) =
      (.char c :: (scan (cursor.advance c) rest).1, (scan (cursor.advance c) rest).2) := by
  rw [scan]
  split
  · rename_i heq
    cases hread.symm.trans heq
  · exact if_neg (by simp [hstops])

def atLineEnd : Text → Bool
  | [] => true
  | c :: rest => c == '\n' || c == '\r' || (c == '*' && rest.head? == some '/')

private theorem scan_of_lineFeed (cursor cursor' : Cursor) (rest : Text) :
    scan cursor ('\n' :: rest) = scan cursor' ('\n' :: rest) := by
  have hstops : stops '\n' rest = false := by simp [stops]
  have hread (cursor : Cursor) : cursor.readTag? ('\n' :: rest) = none :=
    Cursor.readTag?_of_head_ne (by simp)
  rw [scan_of_char (hread _) hstops, scan_of_char (hread _) hstops]
  rfl

theorem scan_of_atLineEnd {text : Text} (h : atLineEnd text = true) (cursor cursor' : Cursor) :
    scan cursor text = scan cursor' text := by
  cases text with
  | nil => rw [scan_nil, scan_nil]
  | cons c rest =>
    by_cases hstops : stops c rest = true
    · rw [scan_of_stops hstops, scan_of_stops hstops]
    · rw [Bool.not_eq_true] at hstops
      have hc : c = '\n' ∨ c = '\r' ∧ rest.head? = some '\n' := by
        simp only [atLineEnd, stops, Bool.or_eq_true, Bool.and_eq_true, beq_iff_eq,
          Bool.or_eq_false_iff, Bool.and_eq_false_iff, beq_eq_false_iff_ne, bne_eq_false_iff_eq]
          at h hstops
        grind
      rcases hc with rfl | ⟨rfl, hnext⟩
      · exact scan_of_lineFeed cursor cursor' rest
      · obtain ⟨later, rfl⟩ : ∃ later, rest = '\n' :: later := by
          cases rest with
          | nil => cases hnext
          | cons d later => exact ⟨later, by simpa using hnext⟩
        have hread (cursor : Cursor) : cursor.readTag? ('\r' :: '\n' :: later) = none :=
          Cursor.readTag?_of_head_ne (by simp)
        rw [scan_of_char (hread _) hstops, scan_of_char (hread _) hstops,
          scan_of_lineFeed (cursor.advance '\r') (cursor'.advance '\r')]

/-- Whether the last character of a text is white space, or what came before an empty one. -/
def spaceAfter (afterSpace : Bool) : Text → Bool
  | [] => afterSpace
  | c :: rest => spaceAfter (Text.isSpace c) rest

theorem spaceAfter_append (afterSpace : Bool) (a b : Text) :
    spaceAfter afterSpace (a ++ b) = spaceAfter (spaceAfter afterSpace a) b := by
  induction a generalizing afterSpace with
  | nil => rfl
  | cons c a ih => exact ih _

theorem spaceAfter_concat (afterSpace : Bool) (text : Text) (c : Char) :
    spaceAfter afterSpace (text ++ [c]) = Text.isSpace c := by
  rw [spaceAfter_append]
  rfl

theorem spaceBefore_eq (afterSpace : Bool) (indent leader : Text) :
    spaceBefore afterSpace indent leader = spaceAfter afterSpace (indent ++ leader) := by
  unfold spaceBefore
  generalize indent ++ leader = text
  induction text generalizing afterSpace with
  | nil => rfl
  | cons c text ih =>
    refine Eq.trans ?_ (ih (Text.isSpace c))
    cases text with
    | nil => rfl
    | cons d text => simp [List.getLast?_cons]

theorem splitRun_after (afterSpace : Bool) (text : Text) :
    atLineEnd (splitRun afterSpace text).2 = true ∨
      (splitRun afterSpace text).2.head? = some '@' ∧
        spaceAfter afterSpace (splitRun afterSpace text).1 = true := by
  fun_induction splitRun afterSpace text with
  | case1 => exact .inl rfl
  | case2 afterSpace c rest hc =>
    rcases hc with rfl | rfl | ⟨rfl, hspace⟩ | ⟨rfl, hnext⟩
    · exact .inl rfl
    · exact .inl rfl
    · exact .inr ⟨rfl, hspace⟩
    · exact .inl (by simp [atLineEnd, hnext])
  | case3 afterSpace c rest hc more ih => exact ih

theorem stops_of_mem_run {afterSpace : Bool} {c : Char} {rest : Text}
    (h : ¬ (c = '\r' ∨ c = '\n' ∨ (c = '@' ∧ afterSpace = true) ∨
      (c = '*' ∧ rest.head? = some '/'))) : stops c rest = false := by
  simp only [stops, Bool.or_eq_false_iff, Bool.and_eq_false_iff, beq_eq_false_iff_ne]
  grind

theorem Cursor.readTag?_in_word {afterSpace : Bool} {c : Char} {rest : Text}
    (hat : c = '@' → afterSpace = false) :
    Cursor.readTag? ⟨.inside, afterSpace⟩ (c :: rest) = none := by
  by_cases hc : c = '@'
  · simp [readTag?, admitsTag, hat hc]
  · exact readTag?_of_head_ne (by simpa using hc)

theorem Cursor.advance_in_word {cursor : Cursor} {c : Char}
    (hspot : cursor.spot = .inside ∨ cursor.spot = .stray) (hfeed : c ≠ '\n')
    (hat : c = '@' → cursor.afterSpace = false) :
    cursor.advance c = ⟨.inside, Text.isSpace c⟩ := by
  unfold advance
  rw [if_neg hfeed, if_neg (by grind)]
  rcases hspot with hspot | hspot <;> rw [hspot]

theorem scan_run (afterSpace : Bool) (text : Text) :
    scan ⟨.inside, afterSpace⟩ text =
      ((splitRun afterSpace text).1.map Item.char ++
          (scan .afterRun (splitRun afterSpace text).2).1,
        (scan .afterRun (splitRun afterSpace text).2).2) := by
  fun_induction splitRun afterSpace text with
  | case1 => simp [scan_nil]
  | case2 afterSpace c rest hc =>
    have hsame : scan ⟨.inside, afterSpace⟩ (c :: rest) = scan .afterRun (c :: rest) := by
      rcases hc with rfl | rfl | ⟨rfl, rfl⟩ | ⟨rfl, hnext⟩
      · exact scan_of_atLineEnd rfl _ _
      · exact scan_of_atLineEnd rfl _ _
      · rfl
      · exact scan_of_atLineEnd (by simp [atLineEnd, hnext]) _ _
    simp [hsame]
  | case3 afterSpace c rest hc more ih =>
    have hat : c = '@' → afterSpace = false := by grind
    rw [scan_of_char (Cursor.readTag?_in_word hat) (stops_of_mem_run hc),
      Cursor.advance_in_word (.inl rfl) (by grind) hat, ih]
    rfl

end OverrideLint.DocComment
