import OverrideLint.Proofs.DocComment.TagReach

/-! The shape of a comment as a grammar with ordered choice. Trying a production leaves a
record of the productions that failed on the way and where they did. Reading a comment line
by line stops where the grammar does, and no production fails behind that place. -/
namespace OverrideLint.DocComment

inductive Production
  | comment
  | opening
  | closing
  | lines
  | line
  | leader
  | segment
  | tag
  | tagName
  | tagText
  | text
  | stray
  | indent
  | lineBreak
deriving DecidableEq

/-- How many characters are taken, given the character before a place and the text behind
it. -/
abbrev Terminal := Option Char → Text → Option Nat

inductive Phrase
  | terminal (length? : Terminal)
  | named (production : Production)
  | sequence (first second : Phrase)
  | choice (first second : Phrase)
  | optional (item : Phrase)
  | repeated (item : Phrase)

namespace Terminal

def literal (word : Text) : Terminal := fun _ text =>
  if word.isPrefixOf text then some word.length else none

def blanks : Terminal := fun _ text => some (text.takeWhile isIndent).length

def star : Terminal
  | _, '*' :: rest =>
    if rest.head? = some '/' then none else some ((rest.takeWhile isIndent).length + 1)
  | _, _ => none

def name : Terminal
  | _, c :: rest => if isNameStart c then some ((rest.takeWhile isNameChar).length + 1) else none
  | _, [] => none

/-- Any character but a line break; a star only without a slash behind it, and an at-sign
only behind something that is no white space. -/
private def continues (before : Option Char) (c : Char) (rest : Text) : Bool :=
  (c != '@' && c != '\r' && c != '\n' && c != '*') || (c == '*' && rest.head? != some '/') ||
    (c == '@' && before.any (!Text.isSpace ·))

def runLength : Option Char → Text → Nat
  | _, [] => 0
  | before, c :: rest => if continues before c rest then runLength (some c) rest + 1 else 0

def run : Terminal := fun before text => some (runLength before text)

def nonemptyRun : Terminal := fun before text =>
  if runLength before text = 0 then none else some (runLength before text)

def newline : Terminal
  | _, '\n' :: _ => some 1
  | _, '\r' :: '\n' :: _ => some 2
  | _, _ => none

end Terminal

def Production.phrase : Production → Phrase
  | comment => .sequence (.named opening) (.sequence (.named lines) (.named closing))
  | opening => .terminal (.literal ['/', '*', '*'])
  | closing => .terminal (.literal ['*', '/'])
  | lines => .sequence (.named line) (.repeated (.sequence (.named lineBreak) (.named line)))
  | line =>
    .sequence (.named indent) (.sequence (.optional (.named leader)) (.repeated (.named segment)))
  | leader => .terminal .star
  | segment => .choice (.named tag) (.choice (.named text) (.named stray))
  | tag => .sequence (.terminal (.literal ['@'])) (.sequence (.named tagName) (.named tagText))
  | tagName => .terminal .name
  | tagText => .terminal .run
  | text => .terminal .nonemptyRun
  | stray => .terminal (.literal ['@'])
  | indent => .terminal .blanks
  | lineBreak => .terminal .newline

abbrev Failure := Production × Nat

/-- What comes of trying a phrase at a place: where it stops if it matches, and the failures
on the way. Nothing is repeated at the end of the text or after a match of nothing. -/
inductive Attempt (whole : Text) : Phrase → Nat → Option Nat → List Failure → Prop
  | terminal (length? : Terminal) (place : Nat) :
    Attempt whole (.terminal length?) place
      ((length? (whole.take place).getLast? (whole.drop place)).map (place + ·)) []
  | matched {production : Production} {place stop : Nat} {failures : List Failure}
      (h : Attempt whole production.phrase place (some stop) failures) :
    Attempt whole (.named production) place (some stop) failures
  | failed {production : Production} {place : Nat} {failures : List Failure}
      (h : Attempt whole production.phrase place none failures) :
    Attempt whole (.named production) place none (failures ++ [(production, place)])
  | sequence {first second : Phrase} {place middle : Nat} {stop : Option Nat}
      {failures later : List Failure} (hfirst : Attempt whole first place (some middle) failures)
      (hsecond : Attempt whole second middle stop later) :
    Attempt whole (.sequence first second) place stop (failures ++ later)
  | sequenceFailed {first : Phrase} (second : Phrase) {place : Nat} {failures : List Failure}
      (hfirst : Attempt whole first place none failures) :
    Attempt whole (.sequence first second) place none failures
  | first {first : Phrase} (second : Phrase) {place stop : Nat} {failures : List Failure}
      (hfirst : Attempt whole first place (some stop) failures) :
    Attempt whole (.choice first second) place (some stop) failures
  | second {first second : Phrase} {place : Nat} {stop : Option Nat}
      {failures later : List Failure} (hfirst : Attempt whole first place none failures)
      (hsecond : Attempt whole second place stop later) :
    Attempt whole (.choice first second) place stop (failures ++ later)
  | optionalEnd (item : Phrase) {place : Nat} (hend : whole.length ≤ place) :
    Attempt whole (.optional item) place (some place) []
  | present {item : Phrase} {place stop : Nat} {failures : List Failure}
      (hlt : place < whole.length) (hitem : Attempt whole item place (some stop) failures) :
    Attempt whole (.optional item) place (some stop) failures
  | absent {item : Phrase} {place : Nat} {failures : List Failure}
      (hlt : place < whole.length) (hitem : Attempt whole item place none failures) :
    Attempt whole (.optional item) place (some place) failures
  | repeatedEnd (item : Phrase) {place : Nat} (hend : whole.length ≤ place) :
    Attempt whole (.repeated item) place (some place) []
  | finished {item : Phrase} {place : Nat} {failures : List Failure}
      (hlt : place < whole.length) (hitem : Attempt whole item place none failures) :
    Attempt whole (.repeated item) place (some place) failures
  | stuck {item : Phrase} {place : Nat} {failures : List Failure}
      (hlt : place < whole.length) (hitem : Attempt whole item place (some place) failures) :
    Attempt whole (.repeated item) place (some place) failures
  | again {item : Phrase} {place middle : Nat} {stop : Option Nat}
      {failures later : List Failure} (hlt : place < whole.length)
      (hitem : Attempt whole item place (some middle) failures) (hne : middle ≠ place)
      (hmore : Attempt whole (.repeated item) middle stop later) :
    Attempt whole (.repeated item) place stop (failures ++ later)

variable {whole : Text}

theorem Attempt.unique {phrase : Phrase} {place : Nat} {stop stop' : Option Nat}
    {failures failures' : List Failure} (h : Attempt whole phrase place stop failures)
    (h' : Attempt whole phrase place stop' failures') : stop = stop' ∧ failures = failures' := by
  induction h generalizing stop' failures' with
  | terminal length? place =>
    cases h'
    exact ⟨rfl, rfl⟩
  | matched h ih =>
    cases h' with
    | matched h' => exact ih h'
    | failed h' => cases (ih h').1
  | failed h ih =>
    cases h' with
    | matched h' => cases (ih h').1
    | failed h' => exact ⟨rfl, by rw [(ih h').2]⟩
  | sequence hfirst hsecond ihfirst ihsecond =>
    cases h' with
    | sequence hfirst' hsecond' =>
      obtain ⟨⟨⟩, rfl⟩ := ihfirst hfirst'
      obtain ⟨rfl, rfl⟩ := ihsecond hsecond'
      exact ⟨rfl, rfl⟩
    | sequenceFailed second hfirst' => cases (ihfirst hfirst').1
  | sequenceFailed second hfirst ihfirst =>
    cases h' with
    | sequence hfirst' hsecond' => cases (ihfirst hfirst').1
    | sequenceFailed second hfirst' => exact ihfirst hfirst'
  | first second hfirst ihfirst =>
    cases h' with
    | first second hfirst' => exact ihfirst hfirst'
    | second hfirst' hsecond' => cases (ihfirst hfirst').1
  | second hfirst hsecond ihfirst ihsecond =>
    cases h' with
    | first second hfirst' => cases (ihfirst hfirst').1
    | second hfirst' hsecond' =>
      obtain ⟨-, rfl⟩ := ihfirst hfirst'
      obtain ⟨rfl, rfl⟩ := ihsecond hsecond'
      exact ⟨rfl, rfl⟩
  | optionalEnd item hend =>
    cases h' with
    | optionalEnd item hend' => exact ⟨rfl, rfl⟩
    | present hlt' hitem' => omega
    | absent hlt' hitem' => omega
  | present hlt hitem ih =>
    cases h' with
    | optionalEnd item hend' => omega
    | present hlt' hitem' => exact ih hitem'
    | absent hlt' hitem' => cases (ih hitem').1
  | absent hlt hitem ih =>
    cases h' with
    | optionalEnd item hend' => omega
    | present hlt' hitem' => cases (ih hitem').1
    | absent hlt' hitem' => exact ⟨rfl, (ih hitem').2⟩
  | repeatedEnd item hend =>
    cases h' with
    | repeatedEnd item hend' => exact ⟨rfl, rfl⟩
    | finished hlt' hitem' => omega
    | stuck hlt' hitem' => omega
    | again hlt' hitem' hne' hmore' => omega
  | finished hlt hitem ih =>
    cases h' with
    | repeatedEnd item hend' => omega
    | finished hlt' hitem' => exact ⟨rfl, (ih hitem').2⟩
    | stuck hlt' hitem' => cases (ih hitem').1
    | again hlt' hitem' hne' hmore' => cases (ih hitem').1
  | stuck hlt hitem ih =>
    cases h' with
    | repeatedEnd item hend' => omega
    | finished hlt' hitem' => cases (ih hitem').1
    | stuck hlt' hitem' => exact ⟨rfl, (ih hitem').2⟩
    | again hlt' hitem' hne' hmore' => exact absurd (Option.some.inj (ih hitem').1).symm hne'
  | again hlt hitem hne hmore ih ihmore =>
    cases h' with
    | repeatedEnd item hend' => omega
    | finished hlt' hitem' => cases (ih hitem').1
    | stuck hlt' hitem' => exact absurd (Option.some.inj (ih hitem').1) hne
    | again hlt' hitem' hne' hmore' =>
      obtain ⟨⟨⟩, rfl⟩ := ih hitem'
      obtain ⟨rfl, rfl⟩ := ihmore hmore'
      exact ⟨rfl, rfl⟩

/-- A phrase matches from a place to another, and nothing fails beyond that. -/
def Reaches (whole : Text) (phrase : Phrase) (place stop : Nat) : Prop :=
  place ≤ stop ∧ ∃ failures, Attempt whole phrase place (some stop) failures ∧
    ∀ failure ∈ failures, failure.2 ≤ stop

def Fails (whole : Text) (phrase : Phrase) (place bound : Nat) : Prop :=
  ∃ failures, Attempt whole phrase place none failures ∧ ∀ failure ∈ failures, failure.2 ≤ bound

section Composition

variable {first second item : Phrase} {place middle stop bound : Nat}

private theorem forall_mem_append_le {failures later : List Failure}
    (hfailures : ∀ failure ∈ failures, failure.2 ≤ bound)
    (hlater : ∀ failure ∈ later, failure.2 ≤ bound) :
    ∀ failure ∈ failures ++ later, failure.2 ≤ bound := by
  intro failure hmem
  exact (List.mem_append.1 hmem).elim (hfailures failure) (hlater failure)

theorem Fails.mono (h : Fails whole item place middle) (hle : middle ≤ bound) :
    Fails whole item place bound := by
  obtain ⟨failures, hattempt, hbound⟩ := h
  exact ⟨failures, hattempt, fun failure hmem => Nat.le_trans (hbound failure hmem) hle⟩

theorem Reaches.named {production : Production}
    (h : Reaches whole production.phrase place stop) :
    Reaches whole (.named production) place stop := by
  obtain ⟨hle, failures, hattempt, hbound⟩ := h
  exact ⟨hle, failures, .matched hattempt, hbound⟩

theorem Fails.named {production : Production} (h : Fails whole production.phrase place bound)
    (hle : place ≤ bound) : Fails whole (.named production) place bound := by
  obtain ⟨failures, hattempt, hbound⟩ := h
  refine ⟨_, .failed hattempt, forall_mem_append_le hbound ?_⟩
  intro failure hmem
  rw [List.mem_singleton.1 hmem]
  exact hle

theorem Reaches.sequence (hfirst : Reaches whole first place middle)
    (hsecond : Reaches whole second middle stop) :
    Reaches whole (.sequence first second) place stop := by
  obtain ⟨hle, failures, hattempt, hbound⟩ := hfirst
  obtain ⟨hle', later, hattempt', hbound'⟩ := hsecond
  exact ⟨Nat.le_trans hle hle', _, .sequence hattempt hattempt', forall_mem_append_le
    (fun failure hmem => Nat.le_trans (hbound failure hmem) hle') hbound'⟩

theorem Fails.sequence (hfirst : Reaches whole first place middle)
    (hsecond : Fails whole second middle bound) (hle : middle ≤ bound) :
    Fails whole (.sequence first second) place bound := by
  obtain ⟨-, failures, hattempt, hbound⟩ := hfirst
  obtain ⟨later, hattempt', hbound'⟩ := hsecond
  exact ⟨_, .sequence hattempt hattempt', forall_mem_append_le
    (fun failure hmem => Nat.le_trans (hbound failure hmem) hle) hbound'⟩

theorem Fails.sequence_first (second : Phrase) (hfirst : Fails whole first place bound) :
    Fails whole (.sequence first second) place bound := by
  obtain ⟨failures, hattempt, hbound⟩ := hfirst
  exact ⟨failures, .sequenceFailed second hattempt, hbound⟩

theorem Reaches.choice_first (second : Phrase) (hfirst : Reaches whole first place stop) :
    Reaches whole (.choice first second) place stop := by
  obtain ⟨hle, failures, hattempt, hbound⟩ := hfirst
  exact ⟨hle, failures, .first second hattempt, hbound⟩

theorem Reaches.choice_second (hfirst : Fails whole first place stop)
    (hsecond : Reaches whole second place stop) :
    Reaches whole (.choice first second) place stop := by
  obtain ⟨failures, hattempt, hbound⟩ := hfirst
  obtain ⟨hle, later, hattempt', hbound'⟩ := hsecond
  exact ⟨hle, _, .second hattempt hattempt', forall_mem_append_le hbound hbound'⟩

theorem Fails.choice (hfirst : Fails whole first place bound)
    (hsecond : Fails whole second place bound) :
    Fails whole (.choice first second) place bound := by
  obtain ⟨failures, hattempt, hbound⟩ := hfirst
  obtain ⟨later, hattempt', hbound'⟩ := hsecond
  exact ⟨_, .second hattempt hattempt', forall_mem_append_le hbound hbound'⟩

theorem Reaches.present (hlt : place < whole.length) (hitem : Reaches whole item place stop) :
    Reaches whole (.optional item) place stop := by
  obtain ⟨hle, failures, hattempt, hbound⟩ := hitem
  exact ⟨hle, failures, .present hlt hattempt, hbound⟩

theorem Reaches.absent (hitem : place < whole.length → Fails whole item place place) :
    Reaches whole (.optional item) place place := by
  refine ⟨Nat.le_refl place, ?_⟩
  by_cases hlt : place < whole.length
  · obtain ⟨failures, hattempt, hbound⟩ := hitem hlt
    exact ⟨failures, .absent hlt hattempt, hbound⟩
  · exact ⟨[], .optionalEnd item (Nat.le_of_not_lt hlt), nofun⟩

theorem Reaches.finished (hitem : place < whole.length → Fails whole item place place) :
    Reaches whole (.repeated item) place place := by
  refine ⟨Nat.le_refl place, ?_⟩
  by_cases hlt : place < whole.length
  · obtain ⟨failures, hattempt, hbound⟩ := hitem hlt
    exact ⟨failures, .finished hlt hattempt, hbound⟩
  · exact ⟨[], .repeatedEnd item (Nat.le_of_not_lt hlt), nofun⟩

theorem Reaches.again (hlt : place < whole.length) (hitem : Reaches whole item place middle)
    (hmiddle : place < middle) (hmore : Reaches whole (.repeated item) middle stop) :
    Reaches whole (.repeated item) place stop := by
  obtain ⟨hle, failures, hattempt, hbound⟩ := hitem
  obtain ⟨hle', later, hattempt', hbound'⟩ := hmore
  exact ⟨Nat.le_trans hle hle', _, .again hlt hattempt (Nat.ne_of_gt hmiddle) hattempt',
    forall_mem_append_le (fun failure hmem => Nat.le_trans (hbound failure hmem) hle') hbound'⟩

end Composition

structure Stands (whole : Text) (place : Nat) (rest : Text) : Prop where
  le_length : place ≤ whole.length
  drop_eq : whole.drop place = rest

def Behind (whole : Text) (place : Nat) (afterSpace : Bool) : Prop :=
  ∃ c, (whole.take place).getLast? = some c ∧ Text.isSpace c = afterSpace

section Places

variable {place : Nat} {rest : Text}

theorem Stands.length_eq (h : Stands whole place rest) : whole.length = place + rest.length := by
  have := congrArg List.length h.drop_eq
  have hle := h.le_length
  rw [List.length_drop] at this
  omega

theorem Stands.advance {taken : Text} (h : Stands whole place (taken ++ rest)) :
    Stands whole (place + taken.length) rest := by
  have hlength := h.length_eq
  rw [List.length_append] at hlength
  refine ⟨by omega, ?_⟩
  rw [← List.drop_drop, h.drop_eq, List.drop_left]

theorem Stands.lt_length {c : Char} (h : Stands whole place (c :: rest)) :
    place < whole.length := by
  have := h.length_eq
  rw [List.length_cons] at this
  omega

theorem Behind.step {c : Char} (h : Stands whole place (c :: rest)) :
    Behind whole (place + 1) (Text.isSpace c) := by
  have hlt := h.lt_length
  have hc : whole[place]? = some c := by
    rw [← List.head?_drop, h.drop_eq, List.head?_cons]
  refine ⟨c, ?_, rfl⟩
  rw [List.take_add_one, hc]
  exact List.getLast?_concat

theorem Behind.advance {afterSpace : Bool} {taken : Text} (h : Behind whole place afterSpace)
    (hstands : Stands whole place (taken ++ rest)) :
    Behind whole (place + taken.length) (spaceAfter afterSpace taken) := by
  induction taken generalizing place afterSpace with
  | nil => exact h
  | cons c taken ih =>
    have hone : Stands whole place ([c] ++ (taken ++ rest)) := hstands
    have hnext := ih (Behind.step hstands) hone.advance
    rw [List.length_cons, Nat.add_comm taken.length, ← Nat.add_assoc]
    exact hnext

theorem reaches_terminal {length? : Terminal} {taken : Text}
    (hstands : Stands whole place (taken ++ rest))
    (h : length? (whole.take place).getLast? (taken ++ rest) = some taken.length) :
    Reaches whole (.terminal length?) place (place + taken.length) := by
  have hattempt : Attempt whole _ place _ _ := .terminal length? place
  rw [hstands.drop_eq, h] at hattempt
  exact ⟨Nat.le_add_right _ _, [], hattempt, nofun⟩

private theorem fails_terminal {length? : Terminal} (hstands : Stands whole place rest)
    (h : length? (whole.take place).getLast? rest = none) (bound : Nat) :
    Fails whole (.terminal length?) place bound := by
  have hattempt : Attempt whole _ place _ _ := .terminal length? place
  rw [hstands.drop_eq, h] at hattempt
  exact ⟨[], hattempt, nofun⟩

end Places

section Segments

variable {place : Nat} {rest : Text} {afterSpace : Bool}

theorem literal_append (before : Option Char) (word rest : Text) :
    Terminal.literal word before (word ++ rest) = some word.length := by
  rw [Terminal.literal, if_pos (List.isPrefixOf_iff_prefix.2 (List.prefix_append word rest))]

private theorem literal_of_head_ne {c : Char} {word : Text} (before : Option Char)
    (h : rest.head? ≠ some c) : Terminal.literal (c :: word) before rest = none := by
  rw [Terminal.literal, if_neg]
  intro hprefix
  obtain ⟨later, rfl⟩ := List.isPrefixOf_iff_prefix.1 hprefix
  exact h rfl

private theorem continues_iff {before c : Char} :
    Terminal.continues (some before) c rest = true ↔
      ¬ (c = '\r' ∨ c = '\n' ∨ (c = '@' ∧ Text.isSpace before = true) ∨
        (c = '*' ∧ rest.head? = some '/')) := by
  simp only [Terminal.continues, Option.any_some, Bool.or_eq_true, Bool.and_eq_true, bne_iff_ne,
    beq_iff_eq, Bool.not_eq_true']
  grind

private theorem runLength_eq (before : Char) (text : Text) :
    Terminal.runLength (some before) text = (splitRun (Text.isSpace before) text).1.length := by
  induction text generalizing before with
  | nil => rfl
  | cons c rest ih =>
    rw [Terminal.runLength, splitRun]
    by_cases hgo : Terminal.continues (some before) c rest = true
    · rw [if_pos hgo, if_neg (continues_iff.1 hgo), ih, List.length_cons]
    · rw [if_neg hgo, if_pos (Decidable.not_not.1 (mt continues_iff.2 hgo)), List.length_nil]

private theorem runLength_of_atLineEnd (before : Option Char) (h : atLineEnd rest = true) :
    Terminal.runLength before rest = 0 := by
  cases rest with
  | nil => rfl
  | cons c rest =>
    simp only [atLineEnd, Bool.or_eq_true, Bool.and_eq_true, beq_iff_eq] at h
    rw [Terminal.runLength, if_neg]
    rcases h with (rfl | rfl) | ⟨rfl, hnext⟩ <;> simp [Terminal.continues, *]

/-- What is known of the character before a place is right, unless it does not matter. -/
private def Told (whole : Text) (place : Nat) (afterSpace : Bool) (rest : Text) : Prop :=
  atLineEnd rest = true ∨ Behind whole place afterSpace

private theorem runLength_of_told (h : Told whole place afterSpace rest) :
    Terminal.runLength (whole.take place).getLast? rest = (splitRun afterSpace rest).1.length := by
  rcases h with hend | ⟨c, hc, rfl⟩
  · rw [runLength_of_atLineEnd _ hend, splitRun_of_atLineEnd hend, List.length_nil]
  · rw [hc, runLength_eq]

private theorem told_of_splitRun {run after : Text} (hbehind : Behind whole place afterSpace)
    (hstands : Stands whole place (run ++ after))
    (hrun : splitRun afterSpace (run ++ after) = (run, after)) :
    Told whole (place + run.length) true after := by
  have hafter := splitRun_after afterSpace (run ++ after)
  rw [hrun] at hafter
  refine hafter.imp id ?_
  rintro ⟨-, hspace⟩
  rw [← hspace]
  exact hbehind.advance hstands

private theorem spaceAfter_name {name : Text} (hname : isName name = true) (afterSpace : Bool) :
    spaceAfter afterSpace name = false := by
  rcases List.eq_nil_or_concat name with rfl | ⟨init, last, rfl⟩
  · cases hname
  · rw [List.concat_eq_append] at hname ⊢
    rw [spaceAfter_concat]
    exact isSpace_of_isNameChar
      (isNameChar_of_mem_isName hname (List.mem_append_right _ (List.mem_singleton_self last)))

private theorem name_append {name after : Text} (hname : isName name = true)
    (hends : endsName after)
    (before : Option Char) : Terminal.name before (name ++ after) = some name.length := by
  cases name with
  | nil => cases hname
  | cons c name =>
    obtain ⟨hstart, hall⟩ := Bool.and_eq_true_iff.1 hname
    rw [List.cons_append, Terminal.name, if_pos hstart,
      (takeWhile_append_of_endsName hall hends).1, List.length_cons]

private theorem reaches_tag {name run after : Text}
    (hstands : Stands whole place ('@' :: name ++ run ++ after))
    (hread : readTag ('@' :: name ++ run ++ after) = some (name, run, after)) :
    Reaches whole (.named .tag) place (place + ('@' :: name ++ run).length) ∧
      Told whole (place + ('@' :: name ++ run).length) true after := by
  obtain ⟨hname, hrun, hends⟩ := isName_of_readTag hread
  have hsign : Stands whole place (['@'] ++ (name ++ (run ++ after))) := by simpa using hstands
  have hbehind : Behind whole (place + 1) false := by
    have := Behind.step hsign
    rwa [show Text.isSpace '@' = false from rfl] at this
  have hname' := hbehind.advance hsign.advance
  rw [spaceAfter_name hname] at hname'
  have htold := told_of_splitRun hname' hsign.advance.advance hrun
  have hlength : place + ('@' :: name ++ run).length = place + 1 + name.length + run.length := by
    simp only [List.length_cons, List.length_append]
    omega
  rw [hlength]
  have hat : Reaches whole (.terminal (.literal ['@'])) place (place + 1) :=
    reaches_terminal hsign (literal_append _ _ _)
  have htagName : Reaches whole (.named .tagName) (place + 1) (place + 1 + name.length) :=
    .named (reaches_terminal hsign.advance (name_append hname hends _))
  have htagText : Reaches whole (.named .tagText) (place + 1 + name.length)
      (place + 1 + name.length + run.length) := by
    refine .named (reaches_terminal hsign.advance.advance ?_)
    rw [Terminal.run, runLength_of_told (.inr hname'), hrun]
  exact ⟨.named (hat.sequence (htagName.sequence htagText)), htold⟩

private theorem fails_tag (hstands : Stands whole place rest) (hread : readTag rest = none) :
    Fails whole (.named .tag) place (if rest.head? = some '@' then place + 1 else place) := by
  split
  · rename_i hhead
    obtain ⟨later, rfl⟩ : ∃ later, rest = '@' :: later := List.head?_eq_some_iff.1 hhead
    have hsign : Stands whole place (['@'] ++ later) := hstands
    refine Fails.named (Fails.sequence (reaches_terminal hsign (literal_append _ _ _))
      (Fails.sequence_first _ (Fails.named (fails_terminal hsign.advance ?_ _) (Nat.le_refl _)))
      (Nat.le_refl _)) (Nat.le_add_right _ _)
    cases later with
    | nil => rfl
    | cons c later =>
      rw [readTag] at hread
      split at hread
      · cases hread
      · rename_i hstart
        exact if_neg hstart
  · rename_i hhead
    exact Fails.named (Fails.sequence_first _ (fails_terminal hstands (literal_of_head_ne _ hhead) _))
      (Nat.le_refl _)

private theorem reaches_text {run after : Text} (hne : run ≠ [])
    (hstands : Stands whole place (run ++ after))
    (htold : Told whole place afterSpace (run ++ after))
    (hrun : splitRun afterSpace (run ++ after) = (run, after)) :
    Reaches whole (.named .text) place (place + run.length) := by
  refine .named (reaches_terminal hstands ?_)
  rw [Terminal.nonemptyRun, runLength_of_told htold, hrun,
    if_neg (Nat.ne_of_gt (List.length_pos_iff.2 hne))]

private theorem fails_text {after : Text} (hstands : Stands whole place rest)
    (htold : Told whole place afterSpace rest) (hrun : splitRun afterSpace rest = ([], after)) :
    Fails whole (.named .text) place place := by
  refine .named (fails_terminal hstands ?_ _) (Nat.le_refl _)
  rw [Terminal.nonemptyRun, runLength_of_told htold, hrun, if_pos List.length_nil]

private theorem reaches_segments (hstands : Stands whole place rest)
    (htold : Told whole place afterSpace rest) :
    Reaches whole (.repeated (.named .segment)) place
      (place + ((readSegments afterSpace rest).1.flatMap Segment.render).length) := by
  fun_induction readSegments afterSpace rest generalizing place with
  | case1 afterSpace rest name run after htag more =>
    rename_i ih
    have happend := readTag_append htag
    subst happend
    obtain ⟨hreaches, hafter⟩ := reaches_tag hstands htag
    have hmore := ih hstands.advance hafter
    rw [List.flatMap_cons, List.length_append, ← Nat.add_assoc]
    refine Reaches.again hstands.lt_length (.named (.choice_first _ hreaches)) ?_ hmore
    simp
  | case2 afterSpace rest htag c run after hrun more =>
    rename_i ih
    have happend := splitRun_append afterSpace rest
    rw [hrun] at happend
    subst happend
    have hbehind : Behind whole place afterSpace := by
      refine htold.resolve_left fun hend => ?_
      rw [splitRun_of_atLineEnd hend] at hrun
      cases hrun
    have hlt : place < place + (c :: run).length := Nat.lt_add_of_pos_right (Nat.succ_pos _)
    have hfails : Fails whole (.named .tag) place (place + (c :: run).length) := by
      refine (fails_tag hstands htag).mono ?_
      split
      · exact hlt
      · exact Nat.le_of_lt hlt
    have htext := reaches_text (List.cons_ne_nil c run) hstands htold hrun
    have hmore := ih hstands.advance (told_of_splitRun hbehind hstands hrun)
    rw [List.flatMap_cons, List.length_append, ← Nat.add_assoc]
    exact Reaches.again hstands.lt_length
      (.named (.choice_second hfails (.choice_first _ htext))) hlt hmore
  | case3 afterSpace rest htag after hrun more =>
    rename_i ih
    have happend := splitRun_append afterSpace rest
    rw [hrun, List.nil_append] at happend
    subst happend
    have hsign : Stands whole place (['@'] ++ after) := hstands
    have hfails : Fails whole (.named .tag) place (place + 1) := by
      simpa using fails_tag hstands htag
    have htext := (fails_text hstands htold hrun).mono (Nat.le_succ place)
    have hstray : Reaches whole (.named .stray) place (place + 1) :=
      .named (reaches_terminal hsign (literal_append _ _ _))
    have hmore := ih hsign.advance (.inr (Behind.step hstands))
    rw [List.flatMap_cons, List.length_append, ← Nat.add_assoc]
    exact Reaches.again hstands.lt_length
      (.named (.choice_second hfails (.choice_second htext hstray))) (Nat.lt_succ_self place) hmore
  | case4 afterSpace rest htag after hne hrun =>
    have happend := splitRun_append afterSpace rest
    rw [hrun, List.nil_append] at happend
    subst happend
    have hhead : after.head? ≠ some '@' := by
      intro hhead
      obtain ⟨later, rfl⟩ := List.head?_eq_some_iff.1 hhead
      exact hne later rfl
    refine Reaches.finished fun _ => ?_
    have hfails : Fails whole (.named .tag) place place := by
      simpa [hhead] using fails_tag hstands htag
    have hstray : Fails whole (.named .stray) place place :=
      .named (fails_terminal hstands (literal_of_head_ne _ hhead) _) (Nat.le_refl _)
    exact .named (.choice hfails (.choice (fails_text hstands htold hrun) hstray)) (Nat.le_refl _)

end Segments

section Lines

variable {place : Nat} {rest : Text} {afterSpace : Bool}

private theorem reaches_indent (hstands : Stands whole place rest) :
    Reaches whole (.named .indent) place (place + (rest.takeWhile isIndent).length) := by
  have hsplit : Stands whole place (rest.takeWhile isIndent ++ rest.dropWhile isIndent) := by
    rwa [List.takeWhile_append_dropWhile]
  refine .named (reaches_terminal hsplit ?_)
  rw [List.takeWhile_append_dropWhile, Terminal.blanks]

private theorem reaches_leader (hstands : Stands whole place rest) :
    Reaches whole (.optional (.named .leader)) place (place + (readLeader rest).1.length) := by
  fun_cases readLeader rest with
  | case1 later hnext =>
    refine Reaches.absent fun _ => .named (fails_terminal hstands ?_ _) (Nat.le_refl _)
    exact if_pos hnext
  | case2 later hnext =>
    have hsplit : Stands whole place
        (('*' :: later.takeWhile isIndent) ++ later.dropWhile isIndent) := by
      rwa [List.cons_append, List.takeWhile_append_dropWhile]
    refine Reaches.present hstands.lt_length (.named (reaches_terminal hsplit ?_))
    rw [List.cons_append, List.takeWhile_append_dropWhile]
    exact if_neg hnext
  | case3 rest hstar =>
    refine Reaches.absent fun _ => .named (fails_terminal hstands ?_ _) (Nat.le_refl _)
    unfold Terminal.star
    split
    · exact absurd rfl (hstar _)
    · rfl

private def Line.content (line : Line) : Text :=
  line.indent ++ line.leader ++ line.segments.flatMap Segment.render

private theorem render_eq_content (line : Line) : line.render = line.content ++ line.ending := rfl

private theorem reaches_line (hstands : Stands whole place rest)
    (hbehind : Behind whole place afterSpace) :
    Reaches whole (.named .line) place (place + (readLine afterSpace rest).1.content.length) ∧
      ∃ after, Stands whole (place + (readLine afterSpace rest).1.content.length) after ∧
        readLineBreak after =
          ((readLine afterSpace rest).1.ending, (readLine afterSpace rest).2) := by
  have hblanks : Stands whole place (rest.takeWhile isIndent ++ rest.dropWhile isIndent) := by
    rwa [List.takeWhile_append_dropWhile]
  have hstar : Stands whole (place + (rest.takeWhile isIndent).length)
      ((readLeader (rest.dropWhile isIndent)).1 ++ (readLeader (rest.dropWhile isIndent)).2) := by
    rw [readLeader_append]
    exact hblanks.advance
  have hspace := (hbehind.advance hblanks).advance hstar
  rw [← spaceAfter_append, ← spaceBefore_eq] at hspace
  have hsegments := reaches_segments hstar.advance (.inr hspace)
  have hlength : place + (readLine afterSpace rest).1.content.length =
      place + (rest.takeWhile isIndent).length + (readLeader (rest.dropWhile isIndent)).1.length +
        ((readSegments (spaceBefore afterSpace (rest.takeWhile isIndent)
          (readLeader (rest.dropWhile isIndent)).1)
            (readLeader (rest.dropWhile isIndent)).2).1.flatMap Segment.render).length := by
    simp only [readLine, Line.content, List.length_append, Nat.add_assoc]
  rw [hlength]
  refine ⟨.named ((reaches_indent hstands).sequence
    ((reaches_leader hblanks.advance).sequence hsegments)), _, Stands.advance ?_, rfl⟩
  rw [readSegments_append]
  exact hstar.advance

private theorem newline_eq (before : Option Char) (text : Text) :
    Terminal.newline before text =
      if (readLineBreak text).1 = [] then none else some (readLineBreak text).1.length := by
  fun_cases readLineBreak text with
  | case1 later => rfl
  | case2 later => rfl
  | case3 text hfeed hreturn =>
    unfold Terminal.newline
    split
    · exact absurd rfl (hfeed _)
    · exact absurd rfl (hreturn _)
    · rfl

private theorem behind_lineBreak (hstands : Stands whole place rest)
    (hne : (readLineBreak rest).1 ≠ []) :
    Behind whole (place + (readLineBreak rest).1.length) true := by
  revert hne
  fun_cases readLineBreak rest with
  | case1 later => exact fun _ => Behind.step hstands
  | case2 later =>
    have hreturn : Stands whole place (['\r'] ++ '\n' :: later) := hstands
    exact fun _ => Behind.step hreturn.advance
  | case3 rest hfeed hreturn => exact (absurd rfl ·)

/-- The lines of a comment are those of the grammar. -/
theorem reaches_lines (hstands : Stands whole place rest) (hbehind : Behind whole place afterSpace) :
    ∃ middle, Reaches whole (.named .line) place middle ∧
      Reaches whole (.repeated (.sequence (.named .lineBreak) (.named .line))) middle
        (place + ((readLines afterSpace rest).1.flatMap Line.render).length) := by
  fun_induction readLines afterSpace rest generalizing place with
  | case1 afterSpace rest first =>
    rename_i hend
    obtain ⟨hline, after, hafter, hbreak⟩ := reaches_line hstands hbehind
    refine ⟨_, hline, ?_⟩
    have hlength : ([first.1].flatMap Line.render).length = first.1.content.length := by
      rw [List.flatMap_singleton, render_eq_content, hend, List.append_nil]
    rw [hlength]
    refine Reaches.finished fun _ => .sequence_first _ (.named (fails_terminal hafter ?_ _)
      (Nat.le_refl _))
    rw [newline_eq, hbreak, if_pos hend]
  | case2 afterSpace rest first hend more =>
    rename_i ih
    obtain ⟨hline, after, hafter, hbreak⟩ := reaches_line hstands hbehind
    have hsplit : Stands whole (place + first.1.content.length) (first.1.ending ++ first.2) := by
      have := readLineBreak_append after
      rw [hbreak] at this
      rwa [this]
    have hspace := behind_lineBreak hafter (by rwa [hbreak])
    rw [hbreak] at hspace
    have hlineBreak : Reaches whole (.named .lineBreak) (place + first.1.content.length)
        (place + first.1.content.length + first.1.ending.length) := by
      refine .named (reaches_terminal hsplit ?_)
      have := readLineBreak_append after
      rw [hbreak] at this
      rw [this, newline_eq, hbreak, if_neg hend]
    obtain ⟨middle, hnext, hmore⟩ := ih hsplit.advance hspace
    refine ⟨place + first.1.content.length, hline, ?_⟩
    have hlength : place + ((first.1 :: more.1).flatMap Line.render).length =
        place + first.1.content.length + first.1.ending.length +
          (more.1.flatMap Line.render).length := by
      simp only [List.flatMap_cons, render_eq_content, List.length_append, Nat.add_assoc]
    rw [hlength]
    have hpos : 0 < first.1.ending.length := List.length_pos_iff.2 hend
    have hle := hnext.1
    have hinside := hsplit.length_eq
    rw [List.length_append] at hinside
    exact Reaches.again (by omega) (hlineBreak.sequence hnext) (by omega) hmore

end Lines

theorem stands_lines (body : Text) :
    Stands ('/' :: '*' :: '*' :: body) (3 + ((readLines false body).1.flatMap Line.render).length)
      (readLines false body).2 := by
  have hbody : Stands ('/' :: '*' :: '*' :: body) 3
      ((readLines false body).1.flatMap Line.render ++ (readLines false body).2) := by
    rw [readLines_append]
    exact ⟨Nat.le_add_left 3 body.length, rfl⟩
  exact hbody.advance

theorem reaches_opened (body : Text) :
    Reaches ('/' :: '*' :: '*' :: body) (.named .opening) 0 3 ∧
      Reaches ('/' :: '*' :: '*' :: body) (.named .lines) 3
        (3 + ((readLines false body).1.flatMap Line.render).length) := by
  have hopening : Stands ('/' :: '*' :: '*' :: body) 0 (['/', '*', '*'] ++ body) :=
    ⟨Nat.zero_le _, rfl⟩
  have hbody : Stands ('/' :: '*' :: '*' :: body) 3 body := hopening.advance
  obtain ⟨middle, hline, hmore⟩ := reaches_lines hbody ⟨'*', rfl, rfl⟩
  exact ⟨.named (reaches_terminal hopening (literal_append _ _ _)),
    .named (hline.sequence hmore)⟩

end OverrideLint.DocComment
