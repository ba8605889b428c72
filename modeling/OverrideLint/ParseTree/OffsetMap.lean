import OverrideLint.ParseTree.Basic
import OverrideLint.Text.Utf8

/-! From byte offsets to character offsets. Where every character takes one byte the
two agree; otherwise a table has an entry for each byte, and one for the end. -/
namespace OverrideLint

inductive OffsetMap
  | identity
  | table (offsets : List Nat)
deriving DecidableEq, Repr

namespace OffsetMap

/-- For each byte of a text the index of its character, counted from `index`. -/
def byteIndices (index : Nat) : Text → List Nat
  | [] => [index]
  | c :: rest => List.replicate (Utf8.encode [c]).length index ++ byteIndices (index + 1) rest

def ofText (text : Text) : OffsetMap :=
  if text.length = (Utf8.encode text).length then identity else table (byteIndices 0 text)

def charOffset? : OffsetMap → Nat → Option Nat
  | identity, offset => some offset
  | table offsets, offset => offsets[offset]?

/-- As `charOffset?`; a negative offset counts from the end of the table. -/
def signedOffset? (map : OffsetMap) : Int → Option Int
  | .ofNat offset => (map.charOffset? offset).map Int.ofNat
  | .negSucc n =>
    match map with
    | identity => some (.negSucc n)
    | table offsets => (offsets.reverse[n]?).map Int.ofNat

end OffsetMap

/-- Why a range does not fit its text. -/
inductive RangeError
  | oversized
  | outside
  | invalid (bounds : Span.Invalid)
deriving DecidableEq, Repr

def RangeError.message : RangeError → String
  | oversized => "cannot fit 'int' into an index-sized integer"
  | outside => "list index out of range"
  | invalid bounds => bounds.message

namespace OffsetMap

/-- Offsets that do not fit in 64 bits with their sign cannot be looked up in a table. -/
def isOversized (offset : Int) : Bool :=
  offset < -0x8000000000000000 || 0x8000000000000000 ≤ offset

/-- The character offset of a byte offset, or why there is none. -/
def resolve (map : OffsetMap) (offset : Int) : Except RangeError Int :=
  if map ≠ identity ∧ isOversized offset then .error .oversized
  else match map.signedOffset? offset with
    | some found => .ok found
    | none => .error .outside

/-- The character span of a byte range. The start is looked up first. -/
def span (map : OffsetMap) (range : ByteRange) : Except RangeError Span := do
  let start ← map.resolve range.start
  let stop ← map.resolve range.stop
  (Span.ofBounds start stop).mapError .invalid

end OffsetMap
end OverrideLint
