import OverrideLint.Text.Basic

/-! Two notions of white space. Documentation comments are read with the Unicode
property `White_Space`; everything else also treats the four information
separators as blank. -/
namespace OverrideLint.Text

/-- The Unicode property `White_Space`. -/
def isSpace (c : Char) : Bool :=
  let n := c.toNat
  (0x9 ≤ n && n ≤ 0xD) || n == 0x20 || n == 0x85 || n == 0xA0 || n == 0x1680
    || (0x2000 ≤ n && n ≤ 0x200A) || n == 0x2028 || n == 0x2029 || n == 0x202F
    || n == 0x205F || n == 0x3000

/-- White space or an information separator, U+001C to U+001F. -/
def isBlank (c : Char) : Bool :=
  isSpace c || (0x1C ≤ c.toNat && c.toNat ≤ 0x1F)

def trimRight (text : Text) : Text :=
  (text.reverse.dropWhile isBlank).reverse

def trim (text : Text) : Text :=
  trimRight (text.dropWhile isBlank)

theorem isBlank_of_isSpace {c : Char} (h : isSpace c = true) : isBlank c = true := by
  simp [isBlank, h]

theorem length_trimRight_le (text : Text) : (trimRight text).length ≤ text.length := by
  have := (List.dropWhile_sublist (l := text.reverse) isBlank).length_le
  simpa [trimRight] using this

end OverrideLint.Text
