import OverrideLint.Text.Unprintable

/-! Quoted text as it appears in messages: single quotes by preference, double
quotes around a text that has single quotes only, and escapes for everything
that cannot be shown. -/
namespace OverrideLint.Text

def isPrintable (c : Char) : Bool :=
  if c.toNat < 0x7F then 0x20 ≤ c.toNat else !inRanges unprintableRanges c

def hexDigit (n : Nat) : Char :=
  if n < 10 then Char.ofNat (0x30 + n) else Char.ofNat (0x57 + n)

/-- The lowest `width` hexadecimal digits of a number, most significant first. -/
def hex : Nat → Nat → Text
  | 0, _ => []
  | width + 1, n => hex width (n / 16) ++ [hexDigit (n % 16)]

namespace Quoted

def quoteFor (text : Text) : Char :=
  if text.contains '\'' && !text.contains '"' then '"' else '\''

def escape (quote c : Char) : Text :=
  if c == quote || c == '\\' then ['\\', c]
  else if c == '\n' then ['\\', 'n']
  else if c == '\r' then ['\\', 'r']
  else if c == '\t' then ['\\', 't']
  else if isPrintable c then [c]
  else if c.toNat < 0x100 then '\\' :: 'x' :: hex 2 c.toNat
  else if c.toNat < 0x10000 then '\\' :: 'u' :: hex 4 c.toNat
  else '\\' :: 'U' :: hex 8 c.toNat

end Quoted

def quoted (text : Text) : Text :=
  let quote := Quoted.quoteFor text
  quote :: text.flatMap (Quoted.escape quote) ++ [quote]

end OverrideLint.Text

namespace OverrideLint

def quotedString (s : String) : String :=
  String.ofList (Text.quoted s.toList)

end OverrideLint
