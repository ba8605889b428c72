import OverrideLint.Text.Basic

/-! Lines and columns. Lines are separated by line feeds only; lines and columns
are counted from one. -/
namespace OverrideLint

structure Position where
  line : Nat
  column : Nat
deriving DecidableEq, Repr

namespace Text

/-- The position of an offset. Offsets past the end continue the last line. -/
def positionOf : Text → Nat → Position
  | _, 0 => ⟨1, 1⟩
  | [], n + 1 => ⟨1, n + 2⟩
  | c :: rest, n + 1 =>
    let p := positionOf rest n
    if c = '\n' then ⟨p.line + 1, p.column⟩
    else if p.line = 1 then ⟨1, p.column + 1⟩
    else p

/-- The lines of a text, without the line feeds between them. -/
def lines : Text → List Text
  | [] => [[]]
  | c :: rest =>
    if c = '\n' then [] :: lines rest
    else match lines rest with
      | [] => [[c]]
      | line :: following => (c :: line) :: following

/-- The line of a given number, empty where there is none. -/
def lineText (text : Text) : Nat → Text
  | 0 => []
  | n + 1 => (lines text)[n]?.getD []

/-- The offset at which the last line starts. -/
def lastLineStart (text : Text) : Nat :=
  text.length - ((lines text).getLast?.getD []).length

/-- Line and column of a signed offset. Before the text the line is zero, and the
column is measured from the start of the last line. -/
def signedPosition (text : Text) : Int → Int × Int
  | .ofNat offset => ((positionOf text offset).line, (positionOf text offset).column)
  | .negSucc n => (0, Int.negSucc n - lastLineStart text + 1)

@[simp]
theorem positionOf_zero (text : Text) : positionOf text 0 = ⟨1, 1⟩ := by
  cases text <;> rfl

theorem one_le_line_positionOf (text : Text) (n : Nat) : 1 ≤ (positionOf text n).line := by
  fun_induction positionOf text n <;> grind

theorem lines_ne_nil (text : Text) : lines text ≠ [] := by
  fun_cases lines text <;> simp_all

end Text
end OverrideLint
