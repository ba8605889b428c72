import OverrideLint.Text.Quoted

/-! UTF-8. Decoding stops at the first byte sequence that encodes no character and
reports its place and what is wrong with it. -/
namespace OverrideLint

abbrev Bytes := List UInt8

namespace Utf8

def encode (text : Text) : Bytes := text.flatMap String.utf8EncodeChar

inductive Reason
  | invalidStart
  | invalidContinuation
  | unexpectedEnd
deriving DecidableEq, Repr

def Reason.message : Reason → String
  | invalidStart => "invalid start byte"
  | invalidContinuation => "invalid continuation byte"
  | unexpectedEnd => "unexpected end of data"

/-- The offending bytes start at `position`; `first` is the first of them. -/
structure DecodeError where
  first : UInt8
  position : Nat
  length : Nat
  reason : Reason
deriving DecidableEq, Repr

def DecodeError.message (error : DecodeError) : String :=
  let place :=
    if error.length = 1 then
      let byte := String.ofList (Text.hex 2 error.first.toNat)
      s!"byte 0x{byte} in position {error.position}"
    else s!"bytes in position {error.position}-{error.position + error.length - 1}"
  s!"'utf-8' codec can't decode {place}: {error.reason.message}"

/-- The number of bytes that a leading byte announces, none for a byte that cannot
lead. -/
def announced (lead : Nat) : Option Nat :=
  if lead < 0x80 then some 1
  else if lead < 0xC2 then none
  else if lead < 0xE0 then some 2
  else if lead < 0xF0 then some 3
  else if lead < 0xF5 then some 4
  else none

/-- The second byte is restricted after some leading bytes, so that no character has
two encodings and no surrogate has any. -/
def isSecond (lead byte : Nat) : Bool :=
  let low := if lead = 0xE0 then 0xA0 else if lead = 0xF0 then 0x90 else 0x80
  let high := if lead = 0xED then 0x9F else if lead = 0xF4 then 0x8F else 0xBF
  low ≤ byte && byte ≤ high

def isContinuation (byte : Nat) : Bool := 0x80 ≤ byte && byte ≤ 0xBF

/-- The number of leading bytes of `rest` that continue a character, at most `limit`. -/
def continued (lead limit : Nat) : Bytes → Nat
  | [] => 0
  | second :: rest =>
    if limit = 0 then 0
    else if isSecond lead second.toNat then
      1 + ((rest.take (limit - 1)).takeWhile fun byte => isContinuation byte.toNat).length
    else 0

/-- How many values the leading byte of a sequence of a given length can contribute. -/
def leadValues : Nat → Nat
  | 1 => 128
  | 2 => 32
  | 3 => 16
  | _ => 8

/-- The code point of a well-formed sequence. -/
def codePoint (lead length : Nat) (rest : Bytes) : Nat :=
  rest.foldl (fun n byte => n * 64 + byte.toNat % 64) (lead % leadValues length)

def decodeFrom (position : Nat) : Bytes → Except DecodeError Text
  | [] => .ok []
  | lead :: rest =>
    match announced lead.toNat with
    | none => .error ⟨lead, position, 1, .invalidStart⟩
    | some length =>
      let count := continued lead.toNat (length - 1) rest
      if count + 1 = length then
        let char := Char.ofNat (codePoint lead.toNat length (rest.take count))
        (decodeFrom (position + length) (rest.drop count)).map (char :: ·)
      else if rest.length = count then .error ⟨lead, position, count + 1, .unexpectedEnd⟩
      else .error ⟨lead, position, count + 1, .invalidContinuation⟩
termination_by bytes => bytes.length
decreasing_by exact Nat.lt_succ_of_le (List.drop_sublist _ _).length_le

def decode (bytes : Bytes) : Except DecodeError Text := decodeFrom 0 bytes

end Utf8

/-- Line breaks as a reader of text files sees them: a carriage return, with or
without a line feed, is a line feed. -/
def Text.normalizeBreaks : Text → Text
  | [] => []
  | '\r' :: '\n' :: rest => '\n' :: normalizeBreaks rest
  | '\r' :: rest => '\n' :: normalizeBreaks rest
  | c :: rest => c :: normalizeBreaks rest

end OverrideLint
