import OverrideLint.Proofs.Json.Complete
import OverrideLint.Proofs.Text.Breaks

/-! Line breaks in a document. They stand between its parts only, so a text and the same text with
other line breaks are documents of the same values. -/
namespace OverrideLint.Json

open Text (normalizeBreaks normalizeBreaks_cons exists_cons_of_normalizeBreaks
  normalizeBreaks_normalizeBreaks)

variable {text other rest blank : Text} {c : Char}

def NoBreak (text : Text) : Prop := ∀ c ∈ text, c ≠ '\r' ∧ c ≠ '\n'

section Parts

private theorem exists_cons_of_noBreak (hc : c ≠ '\r' ∧ c ≠ '\n')
    (h : normalizeBreaks other = normalizeBreaks (c :: rest)) :
    ∃ after, other = c :: after ∧ normalizeBreaks after = normalizeBreaks rest := by
  rw [normalizeBreaks_cons hc.1] at h
  exact exists_cons_of_normalizeBreaks hc.2 h

private theorem exists_append_of_noBreak (htext : NoBreak text)
    (h : normalizeBreaks other = normalizeBreaks (text ++ rest)) :
    ∃ after, other = text ++ after ∧ normalizeBreaks after = normalizeBreaks rest := by
  induction text generalizing other with
  | nil => exact ⟨other, rfl, h⟩
  | cons c text ih =>
    obtain ⟨hc, htext⟩ := List.forall_mem_cons.1 htext
    obtain ⟨behind, rfl, hbehind⟩ := exists_cons_of_noBreak hc h
    obtain ⟨after, rfl, hafter⟩ := ih htext hbehind
    exact ⟨after, rfl, hafter⟩

private theorem skipSpace_normalizeBreaks (text : Text) :
    skipSpace (normalizeBreaks text) = normalizeBreaks (skipSpace text) := by
  fun_induction normalizeBreaks text with
  | case1 => rfl
  | case2 rest ih => exact ih
  | case3 rest hfeed ih => exact ih
  | case4 c rest hpair hreturn ih =>
    by_cases hspace : isSpace c = true
    · simpa [skipSpace, List.dropWhile_cons, hspace] using ih
    · simp [skipSpace, hspace, normalizeBreaks_cons hreturn]

private theorem normalizeBreaks_skipSpace (h : normalizeBreaks other = normalizeBreaks text) :
    normalizeBreaks (skipSpace other) = normalizeBreaks (skipSpace text) := by
  rw [← skipSpace_normalizeBreaks, h, skipSpace_normalizeBreaks]

private theorem noBreak_of_noSpace (h : isSpace c = false) : c ≠ '\r' ∧ c ≠ '\n' := by
  constructor <;>
  · rintro rfl
    cases h

private theorem exists_blank_append (hblank : IsBlank blank) (hc : isSpace c = false)
    (h : normalizeBreaks other = normalizeBreaks (blank ++ c :: rest)) :
    ∃ blank' after, other = blank' ++ c :: after ∧ IsBlank blank' ∧
      normalizeBreaks after = normalizeBreaks rest := by
  obtain ⟨blank', hblank', hother⟩ := exists_blank other
  have hskip := normalizeBreaks_skipSpace h
  rw [skipSpace_append_cons hblank hc] at hskip
  obtain ⟨after, hafter, hrest⟩ := exists_cons_of_noBreak (noBreak_of_noSpace hc) hskip
  rw [hafter] at hother
  exact ⟨blank', after, hother, hblank', hrest⟩

private theorem isBlank_of_normalizeBreaks (h : normalizeBreaks other = normalizeBreaks blank)
    (hblank : IsBlank blank) : IsBlank other := by
  have hskip := normalizeBreaks_skipSpace h
  rw [skipSpace_of_isBlank hblank] at hskip
  exact List.dropWhile_eq_nil_iff.1 (Text.eq_nil_of_normalizeBreaks hskip)

end Parts

section Leaves

theorem NoBreak.append {a b : Text} (ha : NoBreak a) (hb : NoBreak b) : NoBreak (a ++ b) :=
  List.forall_mem_append.2 ⟨ha, hb⟩

private theorem noBreak_of_isDigits {digits : Text} (h : IsDigits digits) : NoBreak digits :=
  fun c hc => noBreak_of_noSpace (isSpace_eq_false_of_isDigit (h c hc))

theorem IsFraction.noBreak {fraction : Text} (h : IsFraction fraction) : NoBreak fraction := by
  cases h with
  | absent => exact List.forall_mem_nil _
  | point hfirst hrest =>
    exact List.forall_mem_cons.2 ⟨by decide,
      noBreak_of_isDigits (List.forall_mem_cons.2 ⟨hfirst, hrest⟩)⟩

theorem IsExponent.noBreak {exponent : Text} (h : IsExponent exponent) : NoBreak exponent := by
  cases h with
  | absent => exact List.forall_mem_nil _
  | @power letter sign first digits hletter hsign hfirst hrest =>
    have hdigits : NoBreak (first :: digits) :=
      noBreak_of_isDigits (List.forall_mem_cons.2 ⟨hfirst, hrest⟩)
    have hsigned : NoBreak sign := by
      rcases hsign with rfl | rfl | rfl
      · exact List.forall_mem_nil _
      · exact List.forall_mem_singleton.2 (by decide)
      · exact List.forall_mem_singleton.2 (by decide)
    refine List.forall_mem_cons.2 ⟨?_, hsigned.append hdigits⟩
    rcases hletter with rfl | rfl <;> decide

theorem SpellsNumber.noBreak {digits : Nat} {value : Json} (h : SpellsNumber digits value text) :
    NoBreak text := by
  obtain ⟨negative, first, whole, fraction, exponent, rfl, hwhole, hfraction, hexponent, -⟩ :=
    number_of_spells h
  have hminus : NoBreak (minus negative) := by
    cases negative
    · exact List.forall_mem_nil _
    · exact List.forall_mem_singleton.2 (by decide)
  exact hminus.append ((noBreak_of_isDigits hwhole.isDigits).append
    (hfraction.noBreak.append hexponent.noBreak))

theorem SpellsWord.noBreak {value : Json} (h : SpellsWord value text) : NoBreak text := by
  cases h <;> simp [NoBreak]

private theorem noBreak_of_shortEscape? {char : Char} (h : shortEscape? c = some char) :
    c ≠ '\r' ∧ c ≠ '\n' := by
  constructor <;>
  · rintro rfl
    cases h

private theorem noBreak_of_hexUnit? {a b d : Char} {unit : Nat} (h : hexUnit? a b c d = some unit) :
    NoBreak [a, b, c, d] := by
  have hreturn := ne_of_hexUnit? h (show hexValue? '\r' = none by decide)
  have hfeed := ne_of_hexUnit? h (show hexValue? '\n' = none by decide)
  simp [NoBreak, hreturn, hfeed]

private theorem noBreak_escape : NoBreak ['\\', 'u'] := by simp [NoBreak]

theorem SpellsPoints.noBreak {points : List CodePoint} (h : SpellsPoints points text) :
    NoBreak text := by
  induction h with
  | nil => exact List.forall_mem_nil _
  | plain hcontrol _ _ _ ih =>
    refine List.forall_mem_cons.2 ⟨?_, ih⟩
    constructor <;>
    · rintro rfl
      exact hcontrol (by decide)
  | short hchar _ ih =>
    exact List.forall_mem_cons.2 ⟨by decide,
      List.forall_mem_cons.2 ⟨noBreak_of_shortEscape? hchar, ih⟩⟩
  | unit hunit _ _ ih =>
    exact noBreak_escape.append ((noBreak_of_hexUnit? hunit).append ih)
  | pair hhigh _ hlow _ _ _ ih =>
    exact noBreak_escape.append ((noBreak_of_hexUnit? hhigh).append
      (noBreak_escape.append ((noBreak_of_hexUnit? hlow).append ih)))

end Leaves

section Phrases

/-- What is spelled at the start of a text is spelled there, too, if the breaks are others. -/
def Rebroken (Spelled : Text → Prop) (text : Text) : Prop :=
  ∀ rest other, normalizeBreaks other = normalizeBreaks (text ++ rest) →
    ∃ inner after, other = inner ++ after ∧ Spelled inner ∧
      normalizeBreaks after = normalizeBreaks rest

variable {P Q : Text → Prop} {before after : Text}

private theorem rebroken_of_noBreak (h : P text) (htext : NoBreak text) : Rebroken P text := by
  intro rest other hother
  obtain ⟨after, rfl, hafter⟩ := exists_append_of_noBreak htext hother
  exact ⟨text, after, rfl, h, hafter⟩

theorem Rebroken.mono (h : Rebroken P text) (hPQ : ∀ inner, P inner → Q inner) :
    Rebroken Q text := by
  intro rest other hother
  obtain ⟨inner, after, hsplit, hinner, hafter⟩ := h rest other hother
  exact ⟨inner, after, hsplit, hPQ inner hinner, hafter⟩

theorem Rebroken.behind_blank (h : Rebroken P text) (hblank : IsBlank blank)
    (hstart : Starts text)
    (hother : normalizeBreaks other = normalizeBreaks (blank ++ (text ++ rest))) :
    ∃ blank' inner after, other = blank' ++ (inner ++ after) ∧ IsBlank blank' ∧ P inner ∧
      normalizeBreaks after = normalizeBreaks rest := by
  obtain ⟨c, behind, rfl, hc⟩ := hstart
  rw [List.cons_append] at hother
  obtain ⟨blank', found, rfl, hblank', hfound⟩ := exists_blank_append hblank hc.noSpace hother
  have hagain : normalizeBreaks (c :: found) = normalizeBreaks (c :: behind ++ rest) := by
    have hreturn := (noBreak_of_noSpace hc.noSpace).1
    rw [normalizeBreaks_cons hreturn, hfound, List.cons_append, normalizeBreaks_cons hreturn]
  obtain ⟨inner, after, hsplit, hinner, hafter⟩ := h rest _ hagain
  exact ⟨blank', inner, after, by rw [hsplit], hblank', hinner, hafter⟩

private theorem rebroken_empty {first close : Char} (hfirst : isSpace first = false)
    (hclose : isSpace close = false) (hblank : IsBlank blank)
    (hQ : ∀ blank, IsBlank blank → Q (first :: (blank ++ [close]))) :
    Rebroken Q (first :: (blank ++ [close])) := by
  intro rest other hother
  simp only [List.cons_append, List.append_assoc, List.nil_append] at hother
  obtain ⟨inside, rfl, hinside⟩ := exists_cons_of_noBreak (noBreak_of_noSpace hfirst) hother
  obtain ⟨blank', after, rfl, hblank', hafter⟩ := exists_blank_append hblank hclose hinside
  exact ⟨_, after, by simp, hQ blank' hblank', hafter⟩

theorem Rebroken.enclosed {first close : Char} (h : Rebroken P text)
    (hfirst : isSpace first = false) (hclose : isSpace close = false)
    (hstart : Starts text) (hbefore : IsBlank before)
    (hafter : IsBlank after)
    (hQ : ∀ before inner after, IsBlank before → P inner → IsBlank after →
      Q (first :: (before ++ (inner ++ (after ++ [close]))))) :
    Rebroken Q (first :: (before ++ (text ++ (after ++ [close])))) := by
  intro rest other hother
  simp only [List.cons_append, List.append_assoc, List.nil_append] at hother
  obtain ⟨inside, rfl, hinside⟩ := exists_cons_of_noBreak (noBreak_of_noSpace hfirst) hother
  obtain ⟨before', inner, behind, rfl, hbefore', hinner, hbehind⟩ :=
    h.behind_blank hbefore hstart hinside
  obtain ⟨after', end', rfl, hafter', hend⟩ := exists_blank_append hafter hclose hbehind
  exact ⟨_, end', by simp, hQ before' inner after' hbefore' hinner hafter', hend⟩

theorem Rebroken.parted {R : Text → Prop} {more : Text} (h : Rebroken P text)
    (hmore : Rebroken Q more) (hstart : Starts more)
    (hbefore : IsBlank before) (hafter : IsBlank after)
    (hR : ∀ inner before after more, P inner → IsBlank before → IsBlank after → Q more →
      R (inner ++ (before ++ ',' :: (after ++ more)))) :
    Rebroken R (text ++ (before ++ ',' :: (after ++ more))) := by
  intro rest other hother
  simp only [List.cons_append, List.append_assoc] at hother
  obtain ⟨inner, behind, rfl, hinner, hbehind⟩ := h _ _ hother
  obtain ⟨before', next, rfl, hbefore', hnext⟩ := exists_blank_append hbefore rfl hbehind
  obtain ⟨after', found, end', rfl, hafter', hfound, hend⟩ :=
    hmore.behind_blank hafter hstart hnext
  exact ⟨_, end', by simp, hR inner before' after' found hinner hbefore' hafter' hfound, hend⟩

theorem Spells.rebroken {digits levels : Nat} {phrase : Phrase}
    (h : Spells digits levels phrase text) : Rebroken (Spells digits levels phrase) text := by
  induction h with
  | word levels h => exact rebroken_of_noBreak (.word levels h) h.noBreak
  | number levels h => exact rebroken_of_noBreak (.number levels h) h.noBreak
  | string levels h =>
    have hquote : NoBreak ['"'] := List.forall_mem_singleton.2 (by decide)
    exact rebroken_of_noBreak (.string levels h) (hquote.append (h.noBreak.append hquote))
  | emptyArray levels hblank => exact rebroken_empty rfl rfl hblank fun _ => .emptyArray levels
  | array hbefore h hafter ih =>
    exact ih.enclosed rfl rfl h.starts hbefore hafter fun _ _ _ => .array
  | emptyObject levels hblank => exact rebroken_empty rfl rfl hblank fun _ => .emptyObject levels
  | object hbefore h hafter ih =>
    exact ih.enclosed rfl rfl h.starts hbefore hafter fun _ _ _ => .object
  | lastItem h ih => exact ih.mono fun _ => .lastItem
  | items h hbefore hafter hrest ih ihrest =>
    exact ih.parted ihrest hrest.starts hbefore hafter fun _ _ _ _ => .items
  | @field _ _ name key before after text hname hbefore hafter h ih =>
    intro rest other hother
    have hquote : NoBreak ['"'] := List.forall_mem_singleton.2 (by decide)
    have hquoted : NoBreak ('"' :: (key ++ ['"'])) := hquote.append (hname.noBreak.append hquote)
    have hassoc : '"' :: (key ++ '"' :: (before ++ ':' :: (after ++ text))) ++ rest =
        '"' :: (key ++ ['"']) ++ (before ++ ':' :: (after ++ (text ++ rest))) := by simp
    rw [hassoc] at hother
    obtain ⟨behind, rfl, hbehind⟩ := exists_append_of_noBreak hquoted hother
    obtain ⟨before', next, rfl, hbefore', hnext⟩ := exists_blank_append hbefore rfl hbehind
    obtain ⟨after', inner, end', rfl, hafter', hinner, hend⟩ :=
      ih.behind_blank hafter h.starts hnext
    exact ⟨_, end', by simp, .field hname hbefore' hafter' hinner, hend⟩
  | lastField h ih => exact ih.mono fun _ => .lastField
  | fields h hbefore hafter hrest ih ihrest =>
    exact ih.parted ihrest hrest.starts hbefore hafter fun _ _ _ _ => .fields

theorem IsDocument.rebroken {digits levels : Nat} {value : Json}
    (h : IsDocument digits levels value text)
    (hother : normalizeBreaks other = normalizeBreaks text) :
    IsDocument digits levels value other := by
  obtain ⟨before, inner, after, rfl, hbefore, hafter, hinner⟩ := h
  obtain ⟨before', inner', after', rfl, hbefore', hinner', hafter'⟩ :=
    hinner.rebroken.behind_blank hbefore hinner.starts hother
  exact ⟨before', inner', after', rfl, hbefore', isBlank_of_normalizeBreaks hafter' hafter, hinner'⟩

/-- Reading line breaks as line feeds makes no other document. -/
theorem isDocument_normalizeBreaks_iff {digits levels : Nat} {value : Json} :
    IsDocument digits levels value (normalizeBreaks text) ↔ IsDocument digits levels value text :=
  ⟨fun h => h.rebroken (normalizeBreaks_normalizeBreaks text).symm,
    fun h => h.rebroken (normalizeBreaks_normalizeBreaks text)⟩

end Phrases

section Limits

private theorem openings_filter (text : Text) :
    openings (text.filter (!Text.isBreak ·)) = openings text := by
  rw [openings, openings, List.countP_filter]
  refine List.countP_congr fun c _ => ⟨fun h => (Bool.and_eq_true_iff.1 h).1, fun h => ?_⟩
  have hc : c = '[' ∨ c = '\x7b' := by simpa [isOpening] using h
  rcases hc with rfl | rfl <;> rfl

private theorem openings_normalizeBreaks (text : Text) :
    openings (normalizeBreaks text) = openings text := by
  rw [← openings_filter, Text.filter_normalizeBreaks, openings_filter]

private theorem prefix_of_normalizeBreaks {run : Text} (hrun : IsDigits run) (text : Text)
    (h : run <+: normalizeBreaks text) : run <+: text := by
  obtain ⟨rest, hrest⟩ := h
  have hreturn : '\r' ∉ run ++ rest := hrest ▸ Text.return_notMem_normalizeBreaks text
  rw [← Text.normalizeBreaks_eq_self_iff.2 hreturn] at hrest
  obtain ⟨after, rfl, -⟩ := exists_append_of_noBreak (noBreak_of_isDigits hrun) hrest.symm
  exact List.prefix_append run after

private theorem infix_of_normalizeBreaks {run : Text} (hrun : IsDigits run)
    (h : run <:+: normalizeBreaks text) : run <:+: text := by
  fun_induction normalizeBreaks text with
  | case1 => exact h
  | case2 rest ih =>
    rcases List.infix_cons_iff.1 h with hprefix | hinfix
    · exact (prefix_of_normalizeBreaks hrun ('\r' :: '\n' :: rest) hprefix).isInfix
    · exact (ih hinfix).trans (List.suffix_append ['\r', '\n'] rest).isInfix
  | case3 rest hfeed ih =>
    rcases List.infix_cons_iff.1 h with hprefix | hinfix
    · refine (prefix_of_normalizeBreaks hrun ('\r' :: rest) ?_).isInfix
      rwa [normalizeBreaks]
      exact hfeed
    · exact List.infix_cons (ih hinfix)
  | case4 c rest hpair hreturn ih =>
    rcases List.infix_cons_iff.1 h with hprefix | hinfix
    · rw [← normalizeBreaks_cons hreturn] at hprefix
      exact (prefix_of_normalizeBreaks hrun _ hprefix).isInfix
    · exact List.infix_cons (ih hinfix)

theorem Fits.normalizeBreaks {levels : Nat} (h : Fits levels text) :
    Fits levels (Text.normalizeBreaks text) where
  digits run hrun hdigits := h.digits run (infix_of_normalizeBreaks hdigits hrun) hdigits
  levels := (openings_normalizeBreaks text).trans_le h.levels

end Limits

end OverrideLint.Json
