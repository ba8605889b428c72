/-! Text is a list of characters, so offsets, lengths and columns all count
characters. -/
namespace OverrideLint

abbrev Text := List Char

namespace Text

/-- The characters from `start` up to `stop`; offsets past the end are clipped. -/
def slice (text : Text) (start stop : Nat) : Text :=
  (text.drop start).take (stop - start)

/-- An offset that may count from the end of the text, where minus one stands for the last
character. -/
def resolveOffset (text : Text) (offset : Int) : Nat :=
  (if offset < 0 then offset + text.length else offset).toNat

/-- As `slice`, with bounds that may count from the end. -/
def signedSlice (text : Text) (start stop : Int) : Text :=
  slice text (resolveOffset text start) (resolveOffset text stop)

/-- The nonempty runs of characters between separators. -/
def words (separates : Char → Bool) (text : Text) : List Text :=
  go [] text
where
  go (current : Text) : Text → List Text
    | [] => flush current []
    | c :: rest =>
      if separates c then flush current (go [] rest) else go (c :: current) rest
  flush (current : Text) (following : List Text) : List Text :=
    if current.isEmpty then following else current.reverse :: following

/-- Membership of a character in one of several ranges of code points. -/
def inRanges (ranges : List (Nat × Nat)) (c : Char) : Bool :=
  ranges.any fun (low, high) => low ≤ c.toNat && c.toNat ≤ high

theorem length_slice (text : Text) (start stop : Nat) :
    (slice text start stop).length = min (stop - start) (text.length - start) := by
  simp [slice]

end Text
end OverrideLint
