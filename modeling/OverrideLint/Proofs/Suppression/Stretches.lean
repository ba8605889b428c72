import OverrideLint.Proofs.Suppression.Directives
import OverrideLint.Proofs.Suppression.Record
import OverrideLint.Proofs.Text.Line

/-! Suppressions are read off a whole text, not off its lines. Cut at the line feeds that stand
in no directive, the text falls into stretches that can be read one by one. -/
namespace OverrideLint

namespace Text

def cutAt (cuts : Nat → Bool) : Text → List Text
  | [] => [[]]
  | c :: rest =>
    if c = '\n' ∧ cuts 0 = true then [] :: cutAt (fun k => cuts (k + 1)) rest
    else (cutAt (fun k => cuts (k + 1)) rest).modifyHead (c :: ·)

private theorem cutAt_ne_nil (cuts : Nat → Bool) (text : Text) : cutAt cuts text ≠ [] := by
  induction text generalizing cuts with
  | nil => simp [cutAt]
  | cons c rest ih =>
    rw [cutAt]
    split
    · simp
    · simpa using ih _

theorem cutAt_cases (cuts : Nat → Bool) (text : Text) :
    cutAt cuts text = [text] ∨
      ∃ a b, text = a ++ '\n' :: b ∧ cuts a.length = true ∧
        cutAt cuts text = a :: cutAt (fun k => cuts (a.length + 1 + k)) b := by
  induction text generalizing cuts with
  | nil => exact .inl rfl
  | cons c rest ih =>
    rw [cutAt]
    split
    · rename_i hcut
      obtain ⟨rfl, hcut⟩ := hcut
      refine .inr ⟨[], rest, rfl, hcut, ?_⟩
      simp [Nat.add_comm]
    · rcases ih fun k => cuts (k + 1) with hone | ⟨a, b, rfl, hcut, hpieces⟩
      · exact .inl (by rw [hone, List.modifyHead_cons])
      · refine .inr ⟨c :: a, b, rfl, hcut, ?_⟩
        rw [hpieces, List.modifyHead_cons]
        simp [Nat.add_right_comm]

theorem cutAt_eq_lines_iff (cuts : Nat → Bool) (text : Text) :
    cutAt cuts text = lines text ↔ ∀ place, text[place]? = some '\n' → cuts place = true := by
  induction text generalizing cuts with
  | nil => simp [cutAt, lines]
  | cons c rest ih =>
    have hplaces : (∀ place, (c :: rest)[place]? = some '\n' → cuts place = true) ↔
        (c = '\n' → cuts 0 = true) ∧
          ∀ place, rest[place]? = some '\n' → cuts (place + 1) = true := by
      refine ⟨fun h => ⟨fun hc => h 0 (by simp [hc]), fun place => h (place + 1)⟩, ?_⟩
      rintro ⟨hzero, hlater⟩ (_ | place) hfeed
      · exact hzero (by simpa using hfeed)
      · exact hlater place hfeed
    rw [hplaces, ← ih, cutAt]
    obtain ⟨piece, pieces, hpieces⟩ :=
      List.exists_cons_of_ne_nil (cutAt_ne_nil (fun k => cuts (k + 1)) rest)
    by_cases hc : c = '\n'
    · subst hc
      rw [lines_lineFeed]
      by_cases hcut : cuts 0 = true
      · simp [hcut]
      · simp [hcut, hpieces]
    · obtain ⟨line, more, hlines⟩ := List.exists_cons_of_ne_nil (lines_ne_nil rest)
      simp [lines_cons hc, hc, hpieces, hlines]

theorem intercalate_cutAt (cuts : Nat → Bool) (text : Text) :
    ['\n'].intercalate (cutAt cuts text) = text := by
  induction hlength : text.length using Nat.strong_induction_on generalizing text cuts with
  | _ length ih =>
    subst hlength
    rcases cutAt_cases cuts text with hone | ⟨a, b, rfl, -, hpieces⟩
    · rw [hone]
      simp
    · have hrest := ih b.length (by simp; omega) (fun k => cuts (a.length + 1 + k)) b rfl
      rw [hpieces, List.intercalate_cons_of_ne_nil (cutAt_ne_nil _ _), hrest]
      simp

end Text

namespace Suppression

private def lower (above : Nat) : Suppression → Suppression
  | onLine file line ids => onLine file (above + line) ids
  | other => other

/-- What the pieces of a text ask for when each is read alone. They follow one another with a
line feed in between. -/
def inlineOver (file : String) : List Text → List Suppression
  | [] => []
  | piece :: rest =>
    inline file piece ++ (inlineOver file rest).map (lower (piece.count '\n' + 1))

/-- The pieces of a text that is cut at all line feeds but those that stand between the mark
and the keyword of a directive. -/
def stretches (text : Text) : List Text :=
  Text.cutAt (fun place => ¬ Directive.Bridges text place) text

private theorem stretches_append_lineFeed {a b : Text}
    (h : ¬ Directive.Bridges (a ++ '\n' :: b) a.length) :
    Text.cutAt (fun place => ¬ Directive.Bridges (a ++ '\n' :: b) (a.length + 1 + place)) b =
      stretches b := by
  simp only [Directive.bridges_append_lineFeed h]
  rfl

private theorem suppression_append (file : String) {a : Text} (b : Text) {found : Nat × Directive}
    (h : found.1 ≤ a.length) :
    Directive.suppression file (a ++ '\n' :: b) found = Directive.suppression file a found := by
  simp only [Directive.suppression, Text.line_positionOf, List.take_append_of_le_length h]

private theorem suppression_shift (file : String) (a b : Text) (found : Nat × Directive) :
    Directive.suppression file (a ++ '\n' :: b) (Directive.shift (a.length + 1) found) =
      lower (a.count '\n' + 1) (Directive.suppression file b found) := by
  have htake : (a ++ '\n' :: b).take (a.length + 1 + found.1) = a ++ '\n' :: b.take found.1 := by
    rw [Nat.add_assoc, List.take_length_add_append, Nat.add_comm, List.take_succ_cons]
  simp only [Directive.suppression, Directive.shift, Text.line_positionOf, htake, List.count_append,
    List.count_cons_self, lower]
  split <;> congr 1 <;> omega

private theorem inline_append_lineFeed (file : String) {a b : Text}
    (h : ¬ Directive.Bridges (a ++ '\n' :: b) a.length) :
    inline file (a ++ '\n' :: b) =
      inline file a ++ (inline file b).map (lower (a.count '\n' + 1)) := by
  unfold inline
  rw [Directive.scan_append_lineFeed h, List.map_append, List.map_map, List.map_map]
  congr 1
  · apply List.map_congr_left
    intro found hfound
    have := Directive.le_length_of_mem_scan hfound
    exact suppression_append file b (by omega)
  · apply List.map_congr_left
    intro found _
    exact suppression_shift file a b found

private theorem inline_eq_inlineOver (file : String) (text : Text) :
    inline file text = inlineOver file (stretches text) := by
  induction hlength : text.length using Nat.strong_induction_on generalizing text with
  | _ length ih =>
    subst hlength
    rcases Text.cutAt_cases (fun place => ¬ Directive.Bridges text place) text with
      hone | ⟨a, b, rfl, hcut, hpieces⟩
    · rw [stretches, hone]
      simp [inlineOver]
    · have hfree : ¬ Directive.Bridges (a ++ '\n' :: b) a.length := by simpa using hcut
      have hrest := ih b.length (by simp; omega) b rfl
      rw [stretches, hpieces, stretches_append_lineFeed hfree, inlineOver, ← hrest,
        inline_append_lineFeed file hfree]

private theorem stretches_eq_lines_iff (text : Text) :
    stretches text = Text.lines text ↔
      ∀ found ∈ Directive.scan text 0, '\n' ∉ Directive.gap text found.1 := by
  rw [stretches, Text.cutAt_eq_lines_iff]
  simp only [decide_eq_true_eq, Directive.mem_gap_iff]
  constructor
  · rintro h found hfound ⟨place, hover, hplace⟩
    exact h place hplace ⟨found, hfound, hover⟩
  · rintro h place hplace ⟨found, hfound, hover⟩
    exact h found hfound ⟨place, hover, hplace⟩

private theorem covers_suppression (file : String) (text : Text) (found : Nat × Directive)
    (glob : String → String → Bool) (id source : String) (line : Int) :
    (Directive.suppression file text found).Covers glob id source line ↔
      source = file ∧
        line = 1 + (text.take found.1).count '\n' + (if found.2.nextLine then 1 else 0) ∧
        (id ∈ found.2.ids ∨ anyId ∈ found.2.ids) := by
  simp only [Directive.suppression, Text.line_positionOf, Covers]
  split <;> grind

/-- The suppressions of a text are those of its stretches, each read alone, and a directive
suppresses the line of its mark or the next one. The stretches are the lines of the text
exactly if every directive has its mark and its keyword on one line; else the line feeds in
between, which count as blanks, hold a stretch together. -/
theorem inline_by_stretches (file : String) (text : Text) :
    inline file text = inlineOver file (stretches text) ∧
      ['\n'].intercalate (stretches text) = text ∧
      (stretches text = Text.lines text ↔
        ∀ found ∈ Directive.scan text 0, '\n' ∉ Directive.gap text found.1) ∧
      ∀ found ∈ Directive.scan text 0,
        (∃ ids after, Directive.WrittenAt text found.1 found.2 ids after) ∧
        ∀ glob id source line,
          (Directive.suppression file text found).Covers glob id source line ↔
            source = file ∧
              line = 1 + (text.take found.1).count '\n' + (if found.2.nextLine then 1 else 0) ∧
              (id ∈ found.2.ids ∨ anyId ∈ found.2.ids) :=
  ⟨inline_eq_inlineOver file text, Text.intercalate_cutAt _ text, stretches_eq_lines_iff text,
    fun found hfound => ⟨Directive.exists_writtenAt hfound, covers_suppression file text found⟩⟩

/-- A mark at the end of a line takes the keyword from the next one, though neither line alone
holds a directive, and silences its own line. -/
theorem keyword_below_mark :
    inline "a.ts" "//\noverride-jsdoc-disable-line".toList = [.onLine "a.ts" 1 [anyId]] ∧
      inlineOver "a.ts" (Text.lines "//\noverride-jsdoc-disable-line".toList) = [] := by
  decide +kernel

end Suppression
end OverrideLint
