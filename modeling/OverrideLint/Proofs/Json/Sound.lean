import OverrideLint.Proofs.Json.Lexical
import OverrideLint.Proofs.Json.Steps

/-! What is read is spelled in the text. Where the reader gives up, the text has an integer with too
many digits, or more opening brackets than there are levels. -/
namespace OverrideLint.Json

variable {α β : Type} {levels : Nat} {text inner rest : Text}

def isOpening (c : Char) : Bool := c == '[' || c == '\x7b'

def openings (text : Text) : Nat := text.countP isOpening

def Failure.Explained (levels : Nat) (text : Text) : Failure → Prop
  | malformed .. => True
  | oversized digits =>
    maxDigits < digits ∧ ∃ run, run <:+: text ∧ IsDigits run ∧ run.length = digits
  | tooDeep _ => levels < openings text

theorem Failure.Explained.append {failure : Failure} (h : failure.Explained levels rest)
    (before : Text) : failure.Explained levels (before ++ rest) := by
  cases failure with
  | malformed => trivial
  | oversized digits =>
    obtain ⟨hdigits, run, hrun, hall⟩ := h
    exact ⟨hdigits, run, hrun.trans (List.suffix_append before rest).isInfix, hall⟩
  | tooDeep nesting =>
    simp only [Failure.Explained, openings, List.countP_append] at h ⊢
    omega

theorem Failure.Explained.opening {failure : Failure} {c : Char}
    (hopening : isOpening c = true) (h : failure.Explained levels rest) :
    failure.Explained (levels + 1) (c :: rest) := by
  cases failure with
  | malformed => trivial
  | oversized digits => exact h.append [c]
  | tooDeep nesting =>
    simp only [Failure.Explained, openings, List.countP_cons, hopening, if_true] at h ⊢
    omega

/-- What was read is spelled at the start of the text, and the rest is left. -/
def Sound (levels : Nat) (text : Text) (Spelled : α → Text → Prop) : Result α → Prop
  | .ok (value, rest) => ∃ inner, text = inner ++ rest ∧ Spelled value inner
  | .error failure => failure.Explained levels text

namespace Sound

variable {S : α → Text → Prop} {T : β → Text → Prop} {result : Result α}

theorem on {f : α → β} (h : Sound levels text S result)
    (hf : ∀ value inner, S value inner → T (f value) inner) :
    Sound levels text T (result.on f) := by
  rcases result with failure | ⟨value, rest⟩
  · exact h
  · obtain ⟨inner, htext, hinner⟩ := h
    exact ⟨inner, htext, hf value inner hinner⟩

theorem mono {U : α → Text → Prop} (h : Sound levels text S result)
    (hU : ∀ value inner, S value inner → U value inner) : Sound levels text U result := by
  rcases result with failure | ⟨value, rest⟩
  · exact h
  · obtain ⟨inner, htext, hinner⟩ := h
    exact ⟨inner, htext, hU value inner hinner⟩

theorem andThen {next : α → Text → Result β} (h : Sound levels text S result)
    (hnext : ∀ value inner rest, text = inner ++ rest → S value inner →
      Sound levels text T (next value rest)) : Sound levels text T (result.andThen next) := by
  rcases result with failure | ⟨value, rest⟩
  · exact h
  · obtain ⟨inner, htext, hinner⟩ := h
    exact hnext value inner rest htext hinner

theorem after {U : α → Text → Prop} (h : Sound levels rest S result) (before : Text)
    (hU : ∀ value inner, S value inner → U value (before ++ inner)) :
    Sound levels (before ++ rest) U result := by
  rcases result with failure | ⟨value, behind⟩
  · exact Failure.Explained.append h before
  · obtain ⟨inner, rfl, hinner⟩ := h
    exact ⟨before ++ inner, by simp, hU value inner hinner⟩

theorem opened {U : α → Text → Prop} {c : Char} (hopening : isOpening c = true)
    (h : Sound levels text S result) (hU : ∀ value inner, S value inner → U value (c :: inner)) :
    Sound (levels + 1) (c :: text) U result := by
  rcases result with failure | ⟨value, behind⟩
  · exact Failure.Explained.opening hopening h
  · obtain ⟨inner, rfl, hinner⟩ := h
    exact ⟨c :: inner, rfl, hU value inner hinner⟩

end Sound

private theorem isBlank_takeWhile (text : Text) : IsBlank (text.takeWhile isSpace) :=
  fun _ hc => List.mem_takeWhile_imp hc

theorem exists_blank (text : Text) : ∃ blank, IsBlank blank ∧ text = blank ++ skipSpace text :=
  ⟨text.takeWhile isSpace, isBlank_takeWhile text, List.takeWhile_append_dropWhile.symm⟩

section Brackets

variable {close : Char} {One : α → Text → Prop} {Many : List α → Text → Prop}

/-- The second relation spells lists of what the first one spells, parted by commas. -/
structure PartedByCommas (One : α → Text → Prop) (Many : List α → Text → Prop) : Prop where
  last {item : α} {text : Text} (h : One item text) : Many [item] text
  more {item : α} {items : List α} {text before after rest : Text} (h : One item text)
    (hbefore : IsBlank before) (hafter : IsBlank after) (hrest : Many items rest) :
    Many (item :: items) (text ++ (before ++ ',' :: (after ++ rest)))

private theorem partedByCommas_items (digits levels : Nat) :
    PartedByCommas (fun value => Spells digits levels (.value value))
      (fun items => Spells digits levels (.items items)) :=
  ⟨.lastItem, .items⟩

private theorem partedByCommas_fields (digits levels : Nat) :
    PartedByCommas (fun field => Spells digits levels (.field field))
      (fun fields => Spells digits levels (.fields fields)) :=
  ⟨.lastField, .fields⟩

def Closed (close : Char) (Many : List α → Text → Prop) (items : List α) (text : Text) : Prop :=
  ∃ inner blank, text = inner ++ (blank ++ [close]) ∧ IsBlank blank ∧ Many items inner

private theorem continuedAt_sound {items : Text → Result (List α)} {item : α}
    (hparted : PartedByCommas One Many) (hclose : close ≠ ',') (hitem : One item inner)
    (hitems : ∀ shorter, shorter.length < rest.length →
      Sound levels shorter (Closed close Many) (items shorter)) :
    Sound levels (inner ++ rest) (Closed close Many) (continuedAt close items item rest) := by
  obtain ⟨blank, hblank, hrest⟩ := exists_blank rest
  by_cases hhead : (skipSpace rest).head? = some close
  · obtain ⟨after, hafter⟩ := List.head?_eq_some_iff.1 hhead
    rw [continuedAt_close hafter]
    rw [hafter] at hrest
    exact ⟨inner ++ (blank ++ [close]), by simp [hrest], inner, blank, rfl, hblank,
      hparted.last hitem⟩
  · by_cases hcomma : (skipSpace rest).head? = some ','
    · obtain ⟨after, hafter⟩ := List.head?_eq_some_iff.1 hcomma
      obtain ⟨blank', hblank', hafter'⟩ := exists_blank after
      rw [continuedAt_comma hclose hafter]
      rw [hafter, hafter'] at hrest
      have hmore := hitems (skipSpace after) (by rw [hrest]; simp; omega)
      have hsplit : inner ++ rest = (inner ++ (blank ++ ',' :: blank')) ++ skipSpace after := by
        rw [hrest]
        simp
      rw [hsplit]
      refine (hmore.after _ (U := fun items text => Closed close Many (item :: items) text) ?_).on
        fun _ _ h => h
      rintro items _ ⟨more, last, rfl, hlast, hmany⟩
      exact ⟨inner ++ (blank ++ ',' :: (blank' ++ more)), last, by simp, hlast,
        hparted.more hitem hblank hblank' hmany⟩
    · rw [continuedAt_other hhead hcomma]
      trivial

private theorem enclosedAt_sound {c : Char} {nesting : Nesting}
    {items : Nat → Text → Result (List α)}
    {Many T : Nat → List α → Text → Prop} (hopening : isOpening c = true)
    (hempty : ∀ levels blank, IsBlank blank → T (levels + 1) [] (c :: (blank ++ [close])))
    (hfull : ∀ levels items before inner after, IsBlank before → Many levels items inner →
      IsBlank after → T (levels + 1) items (c :: (before ++ (inner ++ (after ++ [close])))))
    (hitems : ∀ levels shorter, shorter.length ≤ text.length →
      Sound levels shorter (Closed close (Many levels)) (items levels shorter)) :
    Sound levels (c :: text) (T levels) (enclosedAt nesting close items levels text) := by
  cases levels with
  | zero =>
    change 0 < openings (c :: text)
    simp [openings, hopening]
  | succ levels =>
    obtain ⟨blank, hblank, htext⟩ := exists_blank text
    by_cases hhead : (skipSpace text).head? = some close
    · obtain ⟨after, hafter⟩ := List.head?_eq_some_iff.1 hhead
      rw [enclosedAt_close hafter]
      rw [hafter] at htext
      exact ⟨c :: (blank ++ [close]), by simp [htext], hempty levels blank hblank⟩
    · rw [enclosedAt_items hhead]
      have hinner := (hitems levels (skipSpace text) (length_skipSpace_le text)).after blank
        (U := fun items whole => T (levels + 1) items (c :: whole)) (by
          rintro items _ ⟨inner, after, rfl, hafter, hmany⟩
          exact hfull levels items blank inner after hblank hmany hafter)
      rw [← htext] at hinner
      exact hinner.opened hopening fun _ _ h => h

end Brackets

private theorem malformed_of_readPoints {start : Text} {failure : Failure}
    (h : readPoints start text = .error failure) :
    ∃ fault rest, failure = .malformed fault rest := by
  have hprepend : ∀ {point : CodePoint} {result : Except Failure (List CodePoint × Text)},
      prepend point result = .error failure → result = .error failure := by
    intro point result hresult
    cases result <;> cases hresult
    rfl
  fun_induction readPoints start text with
  | _ => grind

private theorem stringAt_sound (levels : Nat) (text : Text) :
    Sound levels ('"' :: text) (fun value whole => ∃ points inner, value = ⟨points⟩ ∧
      whole = '"' :: (inner ++ ['"']) ∧ SpellsPoints points inner) (stringAt text) := by
  unfold stringAt
  cases h : readPoints ('"' :: text) text with
  | error failure =>
    obtain ⟨fault, rest, rfl⟩ := malformed_of_readPoints h
    trivial
  | ok read =>
    obtain ⟨inner, htext, hinner⟩ := spells_of_readPoints h
    exact ⟨'"' :: (inner ++ ['"']), by simp [htext], read.1, inner, rfl, rfl, hinner⟩

theorem IsWhole.isDigits {whole : Text} (h : IsWhole whole) : IsDigits whole := by
  cases h with
  | zero => exact List.forall_mem_singleton.2 rfl
  | digits hfirst _ hrest => exact List.forall_mem_cons.2 ⟨hfirst, hrest⟩

private theorem number_cases (negative : Bool) {whole fraction exponent : Text}
    (hwhole : IsWhole whole) (hfraction : IsFraction fraction) (hexponent : IsExponent exponent) :
    (∃ value, number negative whole fraction exponent = .ok value ∧
      SpellsNumber maxDigits value (minus negative ++ (whole ++ (fraction ++ exponent)))) ∨
    (number negative whole fraction exponent = .error (.oversized whole.length) ∧
      maxDigits < whole.length) := by
  unfold number
  split
  · rename_i hint
    simp only [Bool.and_eq_true, List.isEmpty_iff] at hint
    obtain ⟨rfl, rfl⟩ := hint
    split
    · rename_i hlength
      exact .inr ⟨rfl, hlength⟩
    · rename_i hlength
      left
      refine ⟨_, rfl, ?_⟩
      simpa using SpellsNumber.int negative hwhole (Nat.le_of_not_lt hlength)
  · rename_i hreal
    refine .inl ⟨_, rfl, .real negative hwhole hfraction hexponent ?_⟩
    simpa [← not_and_or] using hreal

private theorem numberAt_sound (levels : Nat) (negative : Bool) {first : Char}
    (hfirst : isDigit first = true) (rest : Text) :
    Sound levels (minus negative ++ first :: rest) (SpellsNumber maxDigits)
      (numberAt negative first rest) := by
  obtain ⟨hwhole, hrest⟩ := splitWhole_spec hfirst rest
  obtain ⟨hfraction, hrest'⟩ := splitFraction_spec (splitWhole first rest).2
  obtain ⟨hexponent, hrest''⟩ := splitExponent_spec (splitFraction (splitWhole first rest).2).2
  unfold numberAt
  dsimp only
  rcases number_cases negative hwhole hfraction hexponent with
    ⟨value, hvalue, hspells⟩ | ⟨herror, hlength⟩
  · rw [hvalue]
    refine ⟨_, ?_, hspells⟩
    rw [List.append_assoc, List.append_assoc, List.append_assoc, hrest'', hrest', List.cons_append,
      hrest]
  · rw [herror]
    have hprefix : first :: (splitWhole first rest).1 <+: first :: rest :=
      List.cons_prefix_cons.2 ⟨rfl, _, hrest⟩
    exact ⟨hlength, _, hprefix.isInfix.trans (List.suffix_append _ _).isInfix, hwhole.isDigits, rfl⟩

section Values

private abbrev SpellsValue (levels : Nat) (value : Json) : Text → Prop :=
  Spells maxDigits levels (.value value)
abbrev SpellsItems (levels : Nat) (items : List Json) : Text → Prop :=
  Spells maxDigits levels (.items items)
private abbrev SpellsField (levels : Nat) (field : WideString × Json) : Text → Prop :=
  Spells maxDigits levels (.field field)
abbrev SpellsFields (levels : Nat) (fields : List (WideString × Json)) : Text → Prop :=
  Spells maxDigits levels (.fields fields)

private theorem unsignedAt_sound (levels : Nat) (negative : Bool) (text : Text) {fault : Fault}
    {behind : Text} :
    Sound levels (minus negative ++ text) (SpellsValue levels)
      ((unsignedAt negative text).getD (.error (.malformed fault behind))) := by
  cases text with
  | nil => trivial
  | cons first rest =>
    rw [unsignedAt]
    split
    · rename_i hfirst
      exact (numberAt_sound levels negative hfirst rest).mono fun _ _ => Spells.number levels
    · trivial

private theorem fieldAt_sound (hvalue : ∀ shorter, shorter.length < text.length →
      Sound levels shorter (SpellsValue levels) (valueAt levels shorter)) :
    Sound levels text (SpellsField levels) (fieldAt levels text) := by
  unfold fieldAt
  split
  · rename_i hquote
    obtain ⟨text, rfl⟩ := List.head?_eq_some_iff.1 hquote
    rw [List.tail_cons]
    refine (stringAt_sound levels text).andThen ?_
    rintro _ _ rest htext ⟨name, key, rfl, rfl, hname⟩
    obtain ⟨before, hbefore, hrest⟩ := exists_blank rest
    by_cases hcolon : (skipSpace rest).head? = some ':'
    · obtain ⟨behind, hbehind⟩ := List.head?_eq_some_iff.1 hcolon
      obtain ⟨after, hafter, hvalueAt⟩ := exists_blank behind
      rw [fieldAfter_colon hbehind]
      rw [hbehind, hvalueAt] at hrest
      have hsplit : '"' :: text =
          ('"' :: (key ++ '"' :: (before ++ ':' :: after))) ++ skipSpace behind := by
        rw [htext, hrest]
        simp
      rw [hsplit] at hvalue ⊢
      have hshorter := hvalue (skipSpace behind) (by simp; omega)
      refine (hshorter.after _
        (U := fun value text => SpellsField levels (⟨name⟩, value) text) ?_).on
        fun _ _ h => h
      intro value inner hinner
      simpa using Spells.field hname hbefore hafter hinner
    · rw [fieldAfter_other hcolon]
      trivial
  · trivial

mutual

private theorem valueAt_sound (levels : Nat) (text : Text) :
    Sound levels text (SpellsValue levels) (valueAt levels text) := by
  rw [valueAt_eq]
  unfold valueStep
  split
  · refine (stringAt_sound levels _).on ?_
    rintro _ _ ⟨points, inner, rfl, rfl, hpoints⟩
    exact .string levels hpoints
  · rename_i rest
    have hitems : ∀ levels shorter, shorter.length ≤ rest.length →
        Sound levels shorter (Closed ']' (SpellsItems levels)) (itemsAt levels shorter) :=
      fun levels shorter _ => itemsAt_sound levels shorter
    exact (enclosedAt_sound (T := fun levels items => SpellsValue levels (.array items)) rfl
      (fun levels _ => .emptyArray levels) (fun _ _ _ _ _ => .array) hitems).on fun _ _ h => h
  · rename_i rest
    have hfields : ∀ levels shorter, shorter.length ≤ rest.length →
        Sound levels shorter (Closed '\x7d' (SpellsFields levels)) (fieldsAt levels shorter) :=
      fun levels shorter _ => fieldsAt_sound levels shorter
    exact (enclosedAt_sound (T := fun levels fields => SpellsValue levels (ofFields fields)) rfl
      (fun levels _ => .emptyObject levels) (fun _ _ _ _ _ => .object) hfields).on fun _ _ h => h
  · exact ⟨_, rfl, .word levels .null⟩
  · exact ⟨_, rfl, .word levels .yes⟩
  · exact ⟨_, rfl, .word levels .no⟩
  · exact ⟨_, rfl, .word levels .notANumber⟩
  · exact ⟨_, rfl, .word levels .infinite⟩
  · exact ⟨_, rfl, .word levels .minusInfinite⟩
  · exact unsignedAt_sound levels true _
  · exact unsignedAt_sound levels false _
termination_by (text.length, 0)
decreasing_by all_goals exact Prod.Lex.left _ _ (by simp_all only [List.length_cons]; omega)

theorem itemsAt_sound (levels : Nat) (text : Text) :
    Sound levels text (Closed ']' (SpellsItems levels)) (itemsAt levels text) := by
  rw [itemsAt_eq]
  refine (valueAt_sound levels text).andThen ?_
  rintro item inner rest rfl hitem
  exact continuedAt_sound (partedByCommas_items maxDigits levels) (by decide) hitem
    fun shorter _ => itemsAt_sound levels shorter
termination_by (text.length, 1)
decreasing_by
  · exact Prod.Lex.right _ (by omega)
  · exact Prod.Lex.left _ _ (by simp_all only [List.length_append]; omega)

theorem fieldsAt_sound (levels : Nat) (text : Text) :
    Sound levels text (Closed '\x7d' (SpellsFields levels)) (fieldsAt levels text) := by
  rw [fieldsAt_eq]
  refine (fieldAt_sound fun shorter _ => valueAt_sound levels shorter).andThen ?_
  rintro field inner rest rfl hfield
  exact continuedAt_sound (partedByCommas_fields maxDigits levels) (by decide) hfield
    fun shorter _ => fieldsAt_sound levels shorter
termination_by (text.length, 1)
decreasing_by
  · exact Prod.Lex.left _ _ (by assumption)
  · exact Prod.Lex.left _ _ (by simp_all only [List.length_append]; omega)

end

end Values

section Documents

theorem readTop_eq (levels : Nat) (text : Text) :
    readDocument.readTop levels text = (valueAt levels (skipSpace text)).bind fun read =>
      if skipSpace read.2 = [] then .ok read.1
      else .error (.malformed .extraData (skipSpace read.2)) := by
  unfold readDocument.readTop valueAt
  cases readValue levels (skipSpace text) with
  | error => rfl
  | ok step =>
    simp only [bind, Except.bind, plain, Except.map]
    split
    · rename_i hend
      rw [if_pos hend]
      rfl
    · rename_i hend
      rw [if_neg hend]
      rfl

private theorem readTop_sound (levels : Nat) (text : Text) :
    (∃ value, readDocument.readTop levels text = .ok value ∧
      IsDocument maxDigits levels value text) ∨
    ∃ failure, readDocument.readTop levels text = .error failure ∧
      failure.Explained levels text := by
  have hsound := valueAt_sound levels (skipSpace text)
  obtain ⟨before, hbefore, htext⟩ := exists_blank text
  rw [readTop_eq]
  cases hvalue : valueAt levels (skipSpace text) with
  | error failure =>
    rw [hvalue] at hsound
    exact .inr ⟨failure, rfl, htext ▸ Failure.Explained.append hsound before⟩
  | ok read =>
    rw [hvalue] at hsound
    obtain ⟨inner, hinner, hspells⟩ := hsound
    by_cases hend : skipSpace read.2 = []
    · obtain ⟨after, hafter, hrest⟩ := exists_blank read.2
      rw [hend, List.append_nil] at hrest
      subst hrest
      refine .inl ⟨read.1, if_pos hend, before, inner, read.2, ?_, hbefore, hafter, hspells⟩
      rw [← hinner, ← htext]
    · exact .inr ⟨_, if_neg hend, trivial⟩

theorem readDocument_sound (levels : Nat) (text : Text) :
    (∃ value, readDocument levels text = .ok value ∧ IsDocument maxDigits levels value text) ∨
      ∃ failure, readDocument levels text = .error failure ∧ failure.Explained levels text := by
  unfold readDocument
  split
  · split
    · exact .inr ⟨_, rfl, trivial⟩
    · exact readTop_sound levels _
  · exact readTop_sound levels _

end Documents

end OverrideLint.Json
