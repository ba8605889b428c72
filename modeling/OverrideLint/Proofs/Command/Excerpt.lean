import OverrideLint.Command.Report
import OverrideLint.Proofs.Text.Line
import OverrideLint.Rule.Context

/-! The excerpt of a diagnostic shows the line on which its span starts, and below it marks the
characters of the span that stand on that line. -/
namespace OverrideLint

namespace Palette

theorem code_plain (number : Nat) : code ⟨false⟩ number = "" := rfl

theorem severity_plain (s : Severity) : severity ⟨false⟩ s = "" := by
  cases s <;> rfl

end Palette

namespace Report

private def underline (line : Text) (d : Diagnostic) : Text :=
  List.replicate (d.location.column - 1).toNat ' ' ++
    '^' :: List.replicate (markWidth line d - 1) '~'

private theorem heading_plain (d : Diagnostic) : heading ⟨false⟩ d = d.describe ++ "\n" := by
  apply String.toList_inj.1
  simp [heading, Palette.bold, Palette.reset, Palette.code_plain, Palette.severity_plain,
    Diagnostic.describe, toString]

private theorem excerpt_plain (d : Diagnostic) (text : Text) :
    excerpt ⟨false⟩ d text =
      "  " ++ String.ofList (Text.lineText text d.location.line.toNat) ++ "\n" ++
        "  " ++ String.ofList (underline (Text.lineText text d.location.line.toNat) d) ++ "\n" := by
  apply String.toList_inj.1
  simp [excerpt, indent, marks, underline, Palette.green, Palette.reset, Palette.code_plain]

def Holds (before line : Text) (span : Span) (column : Nat) : Prop :=
  column < line.length ∧ span.start ≤ before.length + column ∧ before.length + column < span.stop

def Marked (below : Text) (column : Nat) : Prop :=
  below[column]? = some '^' ∨ below[column]? = some '~'

private theorem marked_iff {blanks tildes column : Nat} :
    Marked (List.replicate blanks ' ' ++ '^' :: List.replicate tildes '~') column ↔
      blanks ≤ column ∧ column ≤ blanks + tildes := by
  unfold Marked
  grind

private theorem holds_iff {before line : Text} {span : Span} {column : Nat}
    (h : before.length ≤ span.start) :
    Holds before line span column ↔
      span.start - before.length ≤ column ∧
        column < span.start - before.length +
          min span.width (line.length - (span.start - before.length)) := by
  unfold Holds Span.width
  omega

private theorem underline_eq {before line : Text} {d : Diagnostic}
    (hcolumn : d.location.column = (d.span.start - before.length + 1 : Nat)) :
    underline line d = List.replicate (d.span.start - before.length) ' ' ++
      '^' :: List.replicate
        (min d.span.width (line.length - (d.span.start - before.length)) - 1) '~' := by
  have hwidth : markWidth line d - 1 =
      min d.span.width (line.length - (d.span.start - before.length)) - 1 := by
    unfold markWidth
    rw [hcolumn]
    omega
  rw [underline, hwidth, hcolumn]
  simp

/-- What stands below a line for a span that starts on it. A span has no character on the line
if it is empty or starts at the end of the line; then one mark stands where it starts. -/
structure MarksSpan (before line : Text) (span : Span) (below : Text) : Prop where
  shape : ∃ blanks tildes, below = List.replicate blanks ' ' ++ '^' :: List.replicate tildes '~'
  marked : (∃ column, Holds before line span column) →
    ∀ column, Marked below column ↔ Holds before line span column
  single : (¬ ∃ column, Holds before line span column) →
    ∀ column, Marked below column ↔ before.length + column = span.start
  none_iff : (¬ ∃ column, Holds before line span column) ↔
    span.start = span.stop ∨ span.start = before.length + line.length

private theorem marksSpan_underline {before line : Text} {d : Diagnostic}
    (hbefore : before.length ≤ d.span.start) (hline : d.span.start ≤ before.length + line.length)
    (hcolumn : d.location.column = (d.span.start - before.length + 1 : Nat)) :
    MarksSpan before line d.span (underline line d) := by
  have hle := d.span.start_le_stop
  have hnone : (∃ column, Holds before line d.span column) ↔
      0 < min d.span.width (line.length - (d.span.start - before.length)) := by
    simp only [holds_iff hbefore]
    constructor
    · rintro ⟨column, hcolumn⟩
      omega
    · intro hpos
      exact ⟨d.span.start - before.length, by omega⟩
  rw [underline_eq hcolumn]
  refine ⟨⟨_, _, rfl⟩, ?_, ?_, ?_⟩
  · intro hsome column
    rw [hnone] at hsome
    rw [marked_iff, holds_iff hbefore]
    omega
  · intro hsome column
    rw [hnone] at hsome
    rw [marked_iff]
    omega
  · rw [hnone, Span.width]
    omega

private theorem ofLength?_eq_none {length : Int} (hlow : 0 ≤ length)
    (hhigh : length < 0x100000000) :
    WidthError.ofLength? length = none := by
  rw [WidthError.ofLength?, if_neg (by omega), if_neg (by omega)]

private theorem excerptFault?_eq_none {d : Diagnostic} {text : Text}
    (hcolumn : 1 ≤ d.location.column)
    (hbounds : d.location.column ≤ d.span.start + 1) (hspan : d.span.stop ≤ text.length)
    (hlength : text.length < 0x100000000) : excerptFault? d text = none := by
  have hle := d.span.start_le_stop
  have hwidth : markWidth (Text.lineText text d.location.line.toNat) d ≤ max 1 d.span.width := by
    unfold markWidth
    omega
  have hspanWidth : d.span.width = d.span.stop - d.span.start := rfl
  rw [excerptFault?, ofLength?_eq_none (by omega) (by omega),
    ofLength?_eq_none (by omega) (by omega)]
  rfl

/-- The plain report of a diagnostic shows the line on which its span starts and, below it,
marks exactly the characters of the span that stand on that line. It is printed whole, whatever
the diagnostic, unless the text has billions of characters. -/
theorem gcc_marks_anchor (ctx : RuleContext) (d : Diagnostic)
    (hlocation : d.location = ctx.location d.span.start) (hspan : d.span.stop ≤ ctx.text.length) :
    ∃ before line after below,
      Text.IsLine ctx.text before line after ∧
        before.length ≤ d.span.start ∧ d.span.start ≤ before.length + line.length ∧
        gcc ⟨false⟩ d (some ctx.text) =
          d.describe ++ "\n" ++
            ("  " ++ String.ofList line ++ "\n" ++ "  " ++ String.ofList below ++ "\n") ∧
        MarksSpan before line d.span below ∧
        (ctx.text.length < 0x100000000 → excerptFault? d ctx.text = none) := by
  have hstart : d.span.start ≤ ctx.text.length := d.span.start_le_stop.trans hspan
  obtain ⟨before, after, hline, hnumber, hcolumn⟩ := Text.exists_isLine hstart
  have hpositive := Text.one_le_column_positionOf ctx.text d.span.start
  have hfits := (Text.hasPosition_positionOf hstart).column_le
  have hshown : d.location.line.toNat = (Text.positionOf ctx.text d.span.start).line := by
    rw [hlocation]
    rfl
  have hplace : d.location.column = (Text.positionOf ctx.text d.span.start).column := by
    rw [hlocation]
    rfl
  refine ⟨before, _, after, _, hline, by omega, by omega, ?_,
    marksSpan_underline (by omega) (by omega) (by omega), ?_⟩
  · rw [gcc, heading_plain, Option.map_some, Option.getD_some, excerpt_plain, hshown]
  · intro hlength
    exact excerptFault?_eq_none (by omega) (by omega) hspan hlength

def brokenMethod : RuleContext :=
  ⟨"a.ts", "class A \x7b\n  m(\n  ) \x7b\x7d\n\x7d".toList, .error⟩

def brokenMethodFinding : Diagnostic :=
  brokenMethod.diagnostic .missing "no tag" ⟨12, 21, by decide⟩ none none

theorem gcc_marks_anchor_broken :
    brokenMethodFinding.location = brokenMethod.location brokenMethodFinding.span.start ∧
      brokenMethodFinding.span.stop ≤ brokenMethod.text.length ∧
      gcc ⟨false⟩ brokenMethodFinding (some brokenMethod.text) =
        "a.ts:2:3: error: no tag [overrideTagMissing]\n    m(\n    ^~\n" ∧
      ∃ before line after below,
        Text.IsLine brokenMethod.text before line after ∧
          before.length ≤ 12 ∧ 12 ≤ before.length + line.length ∧
          gcc ⟨false⟩ brokenMethodFinding (some brokenMethod.text) =
            brokenMethodFinding.describe ++ "\n" ++
              ("  " ++ String.ofList line ++ "\n" ++ "  " ++ String.ofList below ++ "\n") ∧
          MarksSpan before line brokenMethodFinding.span below ∧
          (brokenMethod.text.length < 0x100000000 →
            excerptFault? brokenMethodFinding brokenMethod.text = none) :=
  ⟨rfl, by decide, by decide +kernel,
    gcc_marks_anchor brokenMethod brokenMethodFinding rfl (by decide)⟩

end Report
end OverrideLint
