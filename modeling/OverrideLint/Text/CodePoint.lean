import OverrideLint.Text.Quoted

/-! Strings of code points. A text has characters only; an escape can also name a
surrogate, which is no character, and a string that was read from escapes keeps it. -/
namespace OverrideLint

structure Surrogate where
  code : Nat
  inRange : 0xD800 ≤ code ∧ code < 0xE000
deriving DecidableEq, Repr

inductive CodePoint
  | char (c : Char)
  | surrogate (s : Surrogate)
deriving DecidableEq, Repr

namespace CodePoint

def code : CodePoint → Nat
  | char c => c.toNat
  | surrogate s => s.code

def char? : CodePoint → Option Char
  | char c => some c
  | surrogate _ => none

/-- The code point of a UTF-16 unit that stands on its own. -/
def ofUnit (unit : Nat) : CodePoint :=
  if h : 0xD800 ≤ unit ∧ unit < 0xE000 then surrogate ⟨unit, h⟩ else char (Char.ofNat unit)

/-- A surrogate is shown as its escape. -/
def shown : CodePoint → Text
  | char c => [c]
  | surrogate s => '\\' :: 'u' :: Text.hex 4 s.code

end CodePoint

structure WideString where
  points : List CodePoint
deriving DecidableEq, Repr

namespace WideString

def ofText (text : Text) : WideString := ⟨text.map .char⟩

def ofString (s : String) : WideString := ofText s.toList

instance : Coe String WideString := ⟨ofString⟩

instance : Append WideString := ⟨fun s t => ⟨s.points ++ t.points⟩⟩

/-- The characters of a string without surrogates. -/
def toText? (s : WideString) : Option Text := s.points.mapM CodePoint.char?

def toString? (s : WideString) : Option String := s.toText?.map String.ofList

/-- Whether points stand before others, or are the same, in the order of their codes. -/
def precede : List CodePoint → List CodePoint → Bool
  | [], _ => true
  | _ :: _, [] => false
  | p :: ps, q :: qs => p.code < q.code || (p.code == q.code && precede ps qs)

def sorted (strings : List WideString) : List WideString :=
  strings.mergeSort fun s t => precede s.points t.points

def intercalate (between : WideString) (strings : List WideString) : WideString :=
  ⟨between.points.intercalate (strings.map (·.points))⟩

def shown (s : WideString) : String := String.ofList (s.points.flatMap (·.shown))

end WideString
end OverrideLint
