import OverrideLint.Proofs.Json.Sound

/-! What the grammar spells is read. A document that needs more levels or more digits than there are
makes the reader give up, and nothing else does. -/
namespace OverrideLint.Json

variable {α β : Type} {limited : Prop} {rest : Text}

def Failure.isLimit : Failure → Bool
  | malformed .. => false
  | oversized _ => true
  | tooDeep _ => true

def Reads (limited : Prop) (value : α) : Except Failure α → Prop
  | .ok found => found = value
  | .error failure => failure.isLimit = true ∧ limited

namespace Reads

variable {value : α} {result : Result α}

theorem mono {limited' : Prop} {result : Except Failure α} (h : Reads limited value result)
    (himp : limited → limited') : Reads limited' value result := by
  cases result with
  | error => exact ⟨h.1, himp h.2⟩
  | ok => exact h

theorem on (f : α → β) (h : Reads limited (value, rest) result) :
    Reads limited (f value, rest) (result.on f) := by
  cases result with
  | error => exact h
  | ok read =>
    cases h
    rfl

theorem andThen {next : α → Text → Result β} {final : β × Text}
    (h : Reads limited (value, rest) result) (hnext : Reads limited final (next value rest)) :
    Reads limited final (result.andThen next) := by
  cases result with
  | error => exact h
  | ok read =>
    cases h
    exact hnext

end Reads

section Follows

private theorem isSpace_iff {c : Char} :
    isSpace c = true ↔ c = ' ' ∨ c = '\t' ∨ c = '\n' ∨ c = '\r' := by
  simp [isSpace, or_assoc]

theorem isSpace_eq_false_of_isDigit {c : Char} (h : isDigit c = true) : isSpace c = false := by
  rw [← Bool.not_eq_true, isSpace_iff]
  rintro (rfl | rfl | rfl | rfl) <;> exact absurd h (by decide)

private theorem skipSpace_append {blank : Text} (hblank : IsBlank blank)
    (hrest : ∀ c, rest.head? = some c → isSpace c = false) : skipSpace (blank ++ rest) = rest :=
  (takeWhile_append_eq hblank hrest).2

theorem skipSpace_append_cons {blank : Text} {c : Char} (hblank : IsBlank blank)
    (hc : isSpace c = false) : skipSpace (blank ++ c :: rest) = c :: rest :=
  skipSpace_append hblank fun _ h => Option.some.inj h ▸ hc

theorem skipSpace_of_isBlank {blank : Text} (hblank : IsBlank blank) : skipSpace blank = [] :=
  List.dropWhile_eq_nil_iff.2 hblank

private theorem ends_append {blank : Text} (hblank : IsBlank blank) (hrest : Ends rest) :
    Ends (blank ++ rest) := by
  intro c hc
  cases blank with
  | nil => exact hrest c hc
  | cons first blank =>
    cases hc
    rcases isSpace_iff.1 (hblank c List.mem_cons_self) with rfl | rfl | rfl | rfl <;> decide

private theorem ends_of_isBlank {blank : Text} (hblank : IsBlank blank) : Ends blank := by
  have hnil : Ends [] := fun c hc => by cases hc
  simpa using ends_append hblank hnil

private theorem ends_cons {c : Char} (hc : isDigit c = false ∧ c ≠ '.' ∧ c ≠ 'e' ∧ c ≠ 'E') :
    Ends (c :: rest) := fun _ h => Option.some.inj h ▸ hc

end Follows

section Numbers

theorem IsExponent.append {exponent : Text} (h : IsExponent exponent) (hrest : Ends rest) :
    NoDigit (exponent ++ rest) ∧ (exponent ++ rest).head? ≠ some '.' := by
  cases h with
  | absent => exact ⟨hrest.noDigit, fun hpoint => (hrest '.' hpoint).2.1 rfl⟩
  | power hletter =>
    rcases hletter with rfl | rfl
    · exact ⟨fun c hc => by cases hc; rfl, by simp⟩
    · exact ⟨fun c hc => by cases hc; rfl, by simp⟩

theorem IsFraction.append {fraction : Text} (h : IsFraction fraction) (hrest : NoDigit rest) :
    NoDigit (fraction ++ rest) := by
  cases h with
  | absent => exact hrest
  | point =>
    intro c hc
    cases hc
    rfl

private theorem numberAt_append (negative : Bool) {first : Char} {digits fraction exponent : Text}
    (hwhole : IsWhole (first :: digits)) (hfraction : IsFraction fraction)
    (hexponent : IsExponent exponent) (hrest : Ends rest) :
    numberAt negative first (digits ++ (fraction ++ (exponent ++ rest))) =
      (number negative (first :: digits) fraction exponent).map fun value => (value, rest) := by
  obtain ⟨hdigit, hpoint⟩ := hexponent.append hrest
  rw [numberAt, splitWhole_append hwhole (hfraction.append hdigit)]
  dsimp only
  rw [splitFraction_append hfraction hdigit hpoint, splitExponent_append hexponent hrest]

theorem number_of_spells {digits : Nat} {value : Json} {text : Text}
    (h : SpellsNumber digits value text) :
    ∃ negative first whole fraction exponent,
      text = minus negative ++ (first :: (whole ++ (fraction ++ exponent))) ∧
      IsWhole (first :: whole) ∧ IsFraction fraction ∧ IsExponent exponent ∧
      Reads (maxDigits < digits) value (number negative (first :: whole) fraction exponent) := by
  cases h with
  | @int negative whole hwhole hlength =>
    obtain ⟨first, rest, rfl⟩ : ∃ first rest, whole = first :: rest := by cases hwhole <;> simp
    refine ⟨negative, first, rest, [], [], by simp, hwhole, .absent, .absent, ?_⟩
    have hempty : (([] : Text).isEmpty && ([] : Text).isEmpty) = true := rfl
    rw [number, if_pos hempty]
    by_cases hlimit : maxDigits < (first :: rest).length
    · rw [if_pos hlimit]
      exact ⟨rfl, Nat.lt_of_lt_of_le hlimit hlength⟩
    · rw [if_neg hlimit]
      rfl
  | @real negative whole fraction exponent hwhole hfraction hexponent hparts =>
    obtain ⟨first, rest, rfl⟩ : ∃ first rest, whole = first :: rest := by cases hwhole <;> simp
    refine ⟨negative, first, rest, fraction, exponent, by simp, hwhole, hfraction, hexponent, ?_⟩
    rw [number, if_neg]
    · rfl
    · simpa [← not_and_or] using hparts

theorem IsWhole.isDigit_first {first : Char} {digits : Text} (h : IsWhole (first :: digits)) :
    isDigit first = true := h.isDigits first List.mem_cons_self

private theorem valueAt_number (levels : Nat) (negative : Bool) {first : Char}
    (h : isDigit first = true) :
    valueAt levels (minus negative ++ first :: rest) = numberAt negative first rest := by
  rw [valueAt_eq]
  cases negative with
  | false =>
    change valueStep levels (first :: rest) = _
    rw [valueStep, unsignedAt, if_pos h]
    · rfl
    all_goals
      rintro _ ⟨⟩
      exact absurd h (by decide)
  | true =>
    change valueStep levels ('-' :: first :: rest) = _
    rw [valueStep, unsignedAt, if_pos h]
    · rfl
    · rintro _ ⟨⟩
      exact absurd h (by decide)

private theorem reads_number {digits : Nat} {value : Json} {text : Text} (levels : Nat)
    (h : SpellsNumber digits value text) (hrest : Ends rest) :
    Reads (maxDigits < digits) (value, rest) (valueAt levels (text ++ rest)) := by
  obtain ⟨negative, first, whole, fraction, exponent, rfl, hwhole, hfraction, hexponent, hnumber⟩ :=
    number_of_spells h
  have hassoc : minus negative ++ (first :: (whole ++ (fraction ++ exponent))) ++ rest =
      minus negative ++ first :: (whole ++ (fraction ++ (exponent ++ rest))) := by simp
  rw [hassoc, valueAt_number levels negative hwhole.isDigit_first,
    numberAt_append negative hwhole hfraction hexponent hrest]
  cases hfound : number negative (first :: whole) fraction exponent with
  | error failure =>
    rw [hfound] at hnumber
    exact hnumber
  | ok found =>
    rw [hfound] at hnumber
    cases hnumber
    rfl

end Numbers

section Starts

structure IsStart (c : Char) : Prop where
  noSpace : isSpace c = false
  noBracket : c ≠ ']'
  noBrace : c ≠ '\x7d'
  noMark : c.toNat ≠ 0xFEFF

def Starts (text : Text) : Prop := ∃ c behind, text = c :: behind ∧ IsStart c

private theorem isStart_of_isDigit {c : Char} (h : isDigit c = true) : IsStart c := by
  have hne : ∀ other, isDigit other = false → c ≠ other := by
    rintro _ hother rfl
    exact absurd h (by simp [hother])
  refine ⟨isSpace_eq_false_of_isDigit h, hne _ rfl, hne _ rfl, fun hmark => ?_⟩
  exact hne (Char.ofNat 0xFEFF) (by decide) (by rw [← hmark, Char.ofNat_toNat])

theorem Spells.starts {digits levels : Nat} {phrase : Phrase} {text : Text}
    (h : Spells digits levels phrase text) : Starts text := by
  induction h with
  | word _ h => cases h <;> exact ⟨_, _, rfl, by decide, by decide, by decide, by decide⟩
  | number _ h =>
    obtain ⟨negative, first, _, _, _, rfl, hwhole, -⟩ := number_of_spells h
    cases negative with
    | false => exact ⟨first, _, rfl, isStart_of_isDigit hwhole.isDigit_first⟩
    | true => exact ⟨'-', _, rfl, by decide, by decide, by decide, by decide⟩
  | string | emptyArray | array | emptyObject | object | field =>
    exact ⟨_, _, rfl, by decide, by decide, by decide, by decide⟩
  | lastItem _ ih | lastField _ ih => exact ih
  | items _ _ _ _ ih | fields _ _ _ _ ih =>
    obtain ⟨c, behind, rfl, hc⟩ := ih
    exact ⟨c, _, rfl, hc⟩

end Starts

section Brackets

variable {close : Char} {text blank : Text} {one : Text → Result α} {items : Text → Result (List α)}
  {item : α}

private theorem isSpace_close (hclose : close = ']' ∨ close = '\x7d') : isSpace close = false := by
  rcases hclose with rfl | rfl <;> rfl

private theorem ends_close (hclose : close = ']' ∨ close = '\x7d') (hblank : IsBlank blank) :
    Ends (blank ++ close :: rest) := by
  refine ends_append hblank (ends_cons ?_)
  rcases hclose with rfl | rfl <;> decide

private theorem reads_last (hclose : close = ']' ∨ close = '\x7d') (hblank : IsBlank blank)
    (h : ∀ rest, Ends rest → Reads limited (item, rest) (one (text ++ rest))) :
    Reads limited ([item], rest)
      ((one (text ++ (blank ++ close :: rest))).andThen (continuedAt close items)) := by
  refine (h _ (ends_close hclose hblank)).andThen ?_
  rw [continuedAt_close (skipSpace_append_cons hblank (isSpace_close hclose))]
  rfl

private theorem reads_more {before after more : Text} {found : List α}
    (hclose : close = ']' ∨ close = '\x7d') (hbefore : IsBlank before) (hafter : IsBlank after)
    (hmore : Starts more) (h : ∀ rest, Ends rest → Reads limited (item, rest) (one (text ++ rest)))
    (hitems : Reads limited (found, rest) (items (more ++ (blank ++ close :: rest)))) :
    Reads limited (item :: found, rest)
      ((one (text ++ (before ++ ',' :: (after ++ more)) ++ (blank ++ close :: rest))).andThen
        (continuedAt close items)) := by
  obtain ⟨c, behind, rfl, hc⟩ := hmore
  have hassoc : text ++ (before ++ ',' :: (after ++ c :: behind)) ++ (blank ++ close :: rest) =
      text ++ (before ++ ',' :: (after ++ c :: (behind ++ (blank ++ close :: rest)))) := by simp
  rw [hassoc]
  refine (h _ (ends_append hbefore (ends_cons (by decide)))).andThen ?_
  rw [continuedAt_comma (by rcases hclose with rfl | rfl <;> decide)
    (skipSpace_append_cons hbefore rfl), skipSpace_append_cons hafter hc.noSpace]
  exact hitems.on (item :: ·)

variable {nesting : Nesting} {itemsIn : Nat → Text → Result (List α)} {needed : Nat}

private theorem reads_empty (levels : Nat) (hclose : close = ']' ∨ close = '\x7d')
    (hblank : IsBlank blank) :
    Reads (levels < needed + 1) ([], rest)
      (enclosedAt nesting close itemsIn levels (blank ++ close :: rest)) := by
  cases levels with
  | zero => exact ⟨rfl, Nat.succ_pos needed⟩
  | succ levels =>
    rw [enclosedAt_close (skipSpace_append_cons hblank (isSpace_close hclose))]
    rfl

private theorem reads_full {digits : Nat} (levels : Nat) {before after : Text} {found : List α}
    (hclose : close = ']' ∨ close = '\x7d') (hbefore : IsBlank before)
    (htext : Starts text) (h : ∀ levels, Reads (levels < needed ∨ maxDigits < digits) (found, rest)
      (itemsIn levels (text ++ (after ++ close :: rest)))) :
    Reads (levels < needed + 1 ∨ maxDigits < digits) (found, rest)
      (enclosedAt nesting close itemsIn levels (before ++ (text ++ (after ++ close :: rest)))) := by
  cases levels with
  | zero => exact ⟨rfl, .inl (Nat.succ_pos needed)⟩
  | succ levels =>
    obtain ⟨c, behind, rfl, hc⟩ := htext
    have hskip : skipSpace (before ++ c :: (behind ++ (after ++ close :: rest))) =
        c :: (behind ++ (after ++ close :: rest)) := skipSpace_append_cons hbefore hc.noSpace
    rw [List.cons_append, enclosedAt_items, hskip]
    · exact (h levels).mono (by omega)
    · rw [hskip]
      rcases hclose with rfl | rfl
      · simpa using hc.noBracket
      · simpa using hc.noBrace

end Brackets

section Values

/-- A phrase is read where it is spelled, up to what has to follow it. -/
def Phrase.ReadAt (limited : Prop) (levels : Nat) (text : Text) : Phrase → Prop
  | .value found => ∀ rest, Ends rest → Reads limited (found, rest) (valueAt levels (text ++ rest))
  | .items found => ∀ blank rest, IsBlank blank →
    Reads limited (found, rest) (itemsAt levels (text ++ (blank ++ ']' :: rest)))
  | .field found => ∀ rest, Ends rest → Reads limited (found, rest) (fieldAt levels (text ++ rest))
  | .fields found => ∀ blank rest, IsBlank blank →
    Reads limited (found, rest) (fieldsAt levels (text ++ (blank ++ '\x7d' :: rest)))

private theorem reads_string {points : List CodePoint} {text : Text}
    (h : SpellsPoints points text) :
    Reads limited (⟨points⟩, rest) (stringAt (text ++ '"' :: rest)) := by
  rw [stringAt, readPoints_of_spells h]
  rfl

theorem Spells.readAt {digits needed : Nat} {phrase : Phrase} {text : Text}
    (h : Spells digits needed phrase text) (levels : Nat) :
    phrase.ReadAt (levels < needed ∨ maxDigits < digits) levels text := by
  -- on the derivation; every bracket takes a level from the reader and one from the grammar
  induction h generalizing levels with
  | word _ h =>
    intro rest _
    rw [valueAt_eq]
    cases h <;> rfl
  | number _ h =>
    intro rest hrest
    exact (reads_number levels h hrest).mono .inr
  | @string _ _ text h =>
    intro rest _
    have hassoc : '"' :: (text ++ ['"']) ++ rest = '"' :: (text ++ '"' :: rest) := by simp
    rw [hassoc, valueAt_eq]
    exact (reads_string h).on Json.string
  | @emptyArray _ blank hblank =>
    intro rest _
    have hassoc : '[' :: (blank ++ [']']) ++ rest = '[' :: (blank ++ ']' :: rest) := by simp
    rw [hassoc, valueAt_eq]
    exact ((reads_empty levels (.inl rfl) hblank).mono Or.inl).on Json.array
  | @array _ _ before text after hbefore h hafter ih =>
    intro rest _
    have hassoc : '[' :: (before ++ (text ++ (after ++ [']']))) ++ rest =
        '[' :: (before ++ (text ++ (after ++ ']' :: rest))) := by simp
    rw [hassoc, valueAt_eq]
    exact (reads_full levels (.inl rfl) hbefore h.starts
      fun levels => ih levels after rest hafter).on Json.array
  | @emptyObject _ blank hblank =>
    intro rest _
    have hassoc : '\x7b' :: (blank ++ ['\x7d']) ++ rest = '\x7b' :: (blank ++ '\x7d' :: rest) := by
      simp
    rw [hassoc, valueAt_eq]
    exact ((reads_empty levels (.inr rfl) hblank).mono Or.inl).on ofFields
  | @object _ _ before text after hbefore h hafter ih =>
    intro rest _
    have hassoc : '\x7b' :: (before ++ (text ++ (after ++ ['\x7d']))) ++ rest =
        '\x7b' :: (before ++ (text ++ (after ++ '\x7d' :: rest))) := by simp
    rw [hassoc, valueAt_eq]
    exact (reads_full levels (.inr rfl) hbefore h.starts
      fun levels => ih levels after rest hafter).on ofFields
  | lastItem h ih =>
    intro blank rest hblank
    rw [itemsAt_eq]
    exact reads_last (.inl rfl) hblank (ih levels)
  | items h hbefore hafter hrest ih ihrest =>
    intro blank rest hblank
    rw [itemsAt_eq]
    exact reads_more (.inl rfl) hbefore hafter hrest.starts (ih levels)
      (ihrest levels blank rest hblank)
  | @field _ _ name key before after text hname hbefore hafter h ih =>
    intro rest hrest
    obtain ⟨c, behind, rfl, hc⟩ := h.starts
    have hassoc : '"' :: (key ++ '"' :: (before ++ ':' :: (after ++ c :: behind))) ++ rest =
        '"' :: (key ++ '"' :: (before ++ ':' :: (after ++ c :: (behind ++ rest)))) := by simp
    rw [hassoc, fieldAt, List.head?_cons, if_pos rfl, List.tail_cons]
    refine (reads_string hname).andThen ?_
    rw [fieldAfter_colon (skipSpace_append_cons hbefore rfl),
      skipSpace_append_cons hafter hc.noSpace]
    exact (ih levels rest hrest).on fun value => (WideString.mk name, value)
  | lastField h ih =>
    intro blank rest hblank
    rw [fieldsAt_eq]
    exact reads_last (.inr rfl) hblank (ih levels)
  | fields h hbefore hafter hrest ih ihrest =>
    intro blank rest hblank
    rw [fieldsAt_eq]
    exact reads_more (.inr rfl) hbefore hafter hrest.starts (ih levels)
      (ihrest levels blank rest hblank)

end Values

section Documents

variable {digits needed levels : Nat} {value : Json} {text : Text}

private theorem readDocument_eq_readTop (h : ∀ c, text.head? = some c → c.toNat ≠ 0xFEFF) :
    readDocument levels text = readDocument.readTop levels text := by
  cases text with
  | nil => rfl
  | cons c text => rw [readDocument, if_neg (by simpa using h c rfl)]

private theorem isDocument_head (h : IsDocument digits needed value text) :
    ∀ c, text.head? = some c → c.toNat ≠ 0xFEFF := by
  obtain ⟨before, inner, after, rfl, hbefore, hafter, hinner⟩ := h
  obtain ⟨first, behind, rfl, hfirst⟩ := hinner.starts
  intro c hc
  cases before with
  | nil =>
    cases hc
    exact hfirst.noMark
  | cons blank before =>
    cases hc
    rcases isSpace_iff.1 (hbefore c List.mem_cons_self) with rfl | rfl | rfl | rfl <;> decide

private theorem reads_document (levels : Nat) (h : IsDocument digits needed value text) :
    Reads (levels < needed ∨ maxDigits < digits) value (readDocument levels text) := by
  rw [readDocument_eq_readTop (isDocument_head h), readTop_eq]
  obtain ⟨before, inner, after, rfl, hbefore, hafter, hinner⟩ := h
  have hvalue := hinner.readAt levels after (ends_of_isBlank hafter)
  obtain ⟨first, behind, rfl, hfirst⟩ := hinner.starts
  rw [List.cons_append] at hvalue
  rw [List.cons_append, skipSpace_append_cons hbefore hfirst.noSpace]
  cases hread : valueAt levels (first :: (behind ++ after)) with
  | error failure =>
    rw [hread] at hvalue
    exact hvalue
  | ok read =>
    rw [hread] at hvalue
    cases hvalue
    simp [Except.bind, skipSpace_of_isBlank hafter, Reads]

theorem parseWithin_of_isDocument (levels : Nat) (h : IsDocument digits needed value text) :
    parseWithin levels text = .ok value ∨
      ∃ error, parseWithin levels text = .error error ∧
        (∀ fault line, error ≠ .malformed fault line) ∧ (levels < needed ∨ maxDigits < digits) := by
  have hreads := reads_document levels h
  unfold parseWithin
  cases hread : readDocument levels text with
  | ok found =>
    rw [hread] at hreads
    cases hreads
    exact .inl rfl
  | error failure =>
    rw [hread] at hreads
    obtain ⟨hlimit, hlimited⟩ := hreads
    cases failure with
    | malformed => cases hlimit
    | oversized => exact .inr ⟨_, rfl, nofun, hlimited⟩
    | tooDeep => exact .inr ⟨_, rfl, nofun, hlimited⟩

/-- A text is read to a value exactly if it is a document of it within the limits. -/
theorem parseWithin_eq_ok_iff :
    parseWithin levels text = .ok value ↔ IsDocument maxDigits levels value text := by
  constructor
  · intro h
    rcases readDocument_sound levels text with ⟨found, hfound, hdocument⟩ | ⟨failure, hfailure, -⟩
    · rw [parseWithin, hfound] at h
      cases h
      exact hdocument
    · rw [parseWithin, hfailure] at h
      cases failure <;> cases h
  · intro h
    rcases parseWithin_of_isDocument levels h with hok | ⟨_, -, -, hlimited⟩
    · exact hok
    · exact absurd hlimited (by simp)

/-- A fault is found in no document, whatever levels and digits it needs. -/
theorem not_isDocument_of_malformed {fault : Fault} {line : Nat}
    (h : parseWithin levels text = .error (.malformed fault line)) :
    ¬ IsDocument digits needed value text := by
  intro hdocument
  rcases parseWithin_of_isDocument levels hdocument with hok | ⟨error, herror, hne, -⟩
  · cases hok.symm.trans h
  · cases herror.symm.trans h
    exact hne fault line rfl

/-- At most so many digits in a row, and at most so many opening brackets. -/
structure Fits (levels : Nat) (text : Text) : Prop where
  digits : ∀ run, run <:+: text → IsDigits run → run.length ≤ maxDigits
  levels : openings text ≤ levels

theorem malformed_of_fits (hfits : Fits levels text) {error : ReadError}
    (h : parseWithin levels text = .error error) : ∃ fault line, error = .malformed fault line := by
  rcases readDocument_sound levels text with ⟨found, hfound, -⟩ | ⟨failure, hfailure, hexplained⟩
  · rw [parseWithin, hfound] at h
    cases h
  · rw [parseWithin, hfailure] at h
    cases failure with
    | malformed fault rest =>
      cases h
      exact ⟨_, _, rfl⟩
    | oversized digits =>
      obtain ⟨hdigits, run, hrun, hall, rfl⟩ := hexplained
      exact absurd (hfits.digits run hrun hall) (Nat.not_le_of_lt hdigits)
    | tooDeep => exact absurd hfits.levels (Nat.not_le_of_lt hexplained)

theorem IsDocument.of_fits (h : IsDocument digits needed value text) (hfits : Fits levels text) :
    IsDocument maxDigits levels value text := by
  rw [← parseWithin_eq_ok_iff]
  rcases parseWithin_of_isDocument levels h with hok | ⟨error, herror, hne, -⟩
  · exact hok
  · obtain ⟨fault, line, rfl⟩ := malformed_of_fits hfits herror
    exact absurd rfl (hne fault line)

end Documents

end OverrideLint.Json
