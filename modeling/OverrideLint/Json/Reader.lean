import OverrideLint.Json.Value
import OverrideLint.Text.Position

/-! Reading JSON text. Three words beyond the standard stand for numbers that are
not finite. Every reader returns a rest that is shorter than its input. -/
namespace OverrideLint.Json

inductive Fault
  | byteOrderMark
  | value
  | name
  | colon
  | comma
  | extraData
  | unterminatedString
  | controlCharacter
  | escape
  | unicodeEscape
deriving DecidableEq, Repr

def Fault.message : Fault → String
  | byteOrderMark => "Unexpected UTF-8 BOM (decode using utf-8-sig)"
  | value => "Expecting value"
  | name => "Expecting property name enclosed in double quotes"
  | colon => "Expecting ':' delimiter"
  | comma => "Expecting ',' delimiter"
  | extraData => "Extra data"
  | unterminatedString => "Unterminated string starting at"
  | controlCharacter => "Invalid control character at"
  | escape => "Invalid \\escape"
  | unicodeEscape => "Invalid \\uXXXX escape"

inductive Nesting
  | array
  | object
deriving DecidableEq, Repr

/-- A fault with the text from where it was found, an integer too long to read, or a
value nested too deep. -/
inductive Failure
  | malformed (fault : Fault) (rest : Text)
  | oversized (digits : Nat)
  | tooDeep (innermost : Nesting)

inductive ReadError
  | malformed (fault : Fault) (line : Nat)
  | oversized (digits : Nat)
  | tooDeep (innermost : Nesting)
deriving DecidableEq, Repr

/-- Integers of more digits than this are refused. -/
def maxDigits : Nat := 4300

def oversizedMessage (digits : Nat) : String :=
  s!"Exceeds the limit ({maxDigits} digits) for integer string conversion: " ++
    s!"value has {digits} digits; use sys.set_int_max_str_digits() to increase the limit"

/-- Arrays and objects may stand in each other down to this level, in a document that is
read on its own. -/
def maxDepth : Nat := 990

def tooDeepMessage (innermost : Nesting) : String :=
  let name := match innermost with
    | .array => "array"
    | .object => "object"
  s!"maximum recursion depth exceeded while decoding a JSON {name} from a unicode string"

structure Step (α : Type) (text : Text) where
  value : α
  rest : Text
  shorter : rest.length < text.length

def isSpace (c : Char) : Bool := c == ' ' || c == '\t' || c == '\n' || c == '\r'

def skipSpace (text : Text) : Text := text.dropWhile isSpace

theorem length_skipSpace_le (text : Text) : (skipSpace text).length ≤ text.length :=
  (List.dropWhile_sublist isSpace).length_le

def hexValue? (c : Char) : Option Nat :=
  if '0' ≤ c ∧ c ≤ '9' then some (c.toNat - 0x30)
  else if 'a' ≤ c ∧ c ≤ 'f' then some (c.toNat - 0x57)
  else if 'A' ≤ c ∧ c ≤ 'F' then some (c.toNat - 0x37)
  else none

def hexUnit? (a b c d : Char) : Option Nat := do
  return ((← hexValue? a) * 16 + (← hexValue? b)) * 256 + (← hexValue? c) * 16 + (← hexValue? d)

def shortEscape? : Char → Option Char
  | '"' => some '"'
  | '\\' => some '\\'
  | '/' => some '/'
  | 'b' => some (Char.ofNat 0x8)
  | 'f' => some (Char.ofNat 0xC)
  | 'n' => some '\n'
  | 'r' => some '\r'
  | 't' => some '\t'
  | _ => none

def isHighSurrogate (unit : Nat) : Bool := 0xD800 ≤ unit && unit < 0xDC00
def isLowSurrogate (unit : Nat) : Bool := 0xDC00 ≤ unit && unit < 0xE000

/-- The code of a character above U+FFFF, from its two UTF-16 units. -/
def pairCode (high low : Nat) : Nat := 0x10000 + (high - 0xD800) * 0x400 + (low - 0xDC00)

def prepend (point : CodePoint) (result : Except Failure (List CodePoint × Text)) :
    Except Failure (List CodePoint × Text) :=
  result.map fun (points, rest) => (point :: points, rest)

/-- The code points of a string up to its closing quote, and what follows the quote. A
surrogate that is not one of a pair is kept. `start` is the text from the opening quote
on. -/
def readPoints (start : Text) : Text → Except Failure (List CodePoint × Text)
  | [] => .error (.malformed .unterminatedString start)
  | '"' :: rest => .ok ([], rest)
  | '\\' :: 'u' :: a :: b :: c :: d :: '\\' :: 'u' :: e :: f :: g :: h :: next :: rest =>
    match hexUnit? a b c d with
    | none => .error (.malformed .unicodeEscape start)
    | some unit =>
      if isHighSurrogate unit then
        match hexUnit? e f g h with
        | none => .error (.malformed .unicodeEscape start)
        | some low =>
          if isLowSurrogate low then
            prepend (.char (Char.ofNat (pairCode unit low))) (readPoints start (next :: rest))
          else prepend (.ofUnit unit)
            (readPoints start ('\\' :: 'u' :: e :: f :: g :: h :: next :: rest))
      else prepend (.ofUnit unit)
        (readPoints start ('\\' :: 'u' :: e :: f :: g :: h :: next :: rest))
  | '\\' :: 'u' :: a :: b :: c :: d :: next :: rest =>
    match hexUnit? a b c d with
    | none => .error (.malformed .unicodeEscape start)
    | some unit => prepend (.ofUnit unit) (readPoints start (next :: rest))
  | '\\' :: 'u' :: _ => .error (.malformed .unicodeEscape start)
  | ['\\'] => .error (.malformed .unterminatedString start)
  | '\\' :: c :: rest =>
    match shortEscape? c with
    | some char => prepend (.char char) (readPoints start rest)
    | none => .error (.malformed .escape start)
  | c :: rest =>
    if c.toNat < 0x20 then .error (.malformed .controlCharacter (c :: rest))
    else prepend (.char c) (readPoints start rest)
termination_by text => text.length

theorem exists_of_prepend {point : CodePoint} {result : Except Failure (List CodePoint × Text)}
    {points : List CodePoint} {rest : Text} (h : prepend point result = .ok (points, rest)) :
    ∃ inner, points = point :: inner ∧ result = .ok (inner, rest) := by
  cases result with
  | error => cases h
  | ok pair =>
    cases h
    exact ⟨_, rfl, rfl⟩

private theorem length_of_readPoints {start text rest : Text} {points : List CodePoint}
    (h : readPoints start text = .ok (points, rest)) : rest.length < text.length := by
  fun_induction readPoints start text generalizing points with
  | case1 => cases h
  | case2 => simp_all
  | _ =>
    simp only [List.length_cons] at *
    grind [→ exists_of_prepend]

def readString (text : Text) : Except Failure (Step WideString ('"' :: text)) :=
  match h : readPoints ('"' :: text) text with
  | .ok (points, rest) => .ok ⟨⟨points⟩, rest, Nat.lt_succ_of_lt (length_of_readPoints h)⟩
  | .error failure => .error failure

def isDigit (c : Char) : Bool := '0' ≤ c && c ≤ '9'

def digitsValue (digits : Text) : Nat :=
  digits.foldl (fun n c => n * 10 + (c.toNat - 0x30)) 0

/-- A fraction is a point and digits, of which there must be one. -/
def splitFraction : Text → Text × Text
  | '.' :: c :: rest =>
    if isDigit c then ('.' :: c :: rest.takeWhile isDigit, rest.dropWhile isDigit)
    else ([], '.' :: c :: rest)
  | text => ([], text)

def splitSign : Text → Text × Text
  | '+' :: rest => (['+'], rest)
  | '-' :: rest => (['-'], rest)
  | text => ([], text)

/-- An exponent is a letter, a sign if there is one, and digits, of which there must
be one. -/
def splitExponent : Text → Text × Text
  | c :: rest =>
    let sign := splitSign rest
    let digits := sign.2.takeWhile isDigit
    if (c == 'e' || c == 'E') && !digits.isEmpty then
      (c :: sign.1 ++ digits, sign.2.dropWhile isDigit)
    else ([], c :: rest)
  | [] => ([], [])

private theorem length_splitFraction_le (text : Text) :
    (splitFraction text).2.length ≤ text.length := by
  unfold splitFraction
  split
  · rename_i c rest
    have := (List.dropWhile_sublist (l := rest) isDigit).length_le
    split <;> simp only [List.length_cons] <;> omega
  · simp

private theorem length_splitSign_le (text : Text) : (splitSign text).2.length ≤ text.length := by
  unfold splitSign
  split <;> simp

private theorem length_splitExponent_le (text : Text) :
    (splitExponent text).2.length ≤ text.length := by
  unfold splitExponent
  split
  · rename_i c rest
    have hsign := length_splitSign_le rest
    have hdigits := (List.dropWhile_sublist (l := (splitSign rest).2) isDigit).length_le
    dsimp only
    split <;> simp only [List.length_cons] <;> omega
  · simp

def number (negative : Bool) (whole fraction exponent : Text) : Except Failure Json :=
  if fraction.isEmpty && exponent.isEmpty then
    if maxDigits < whole.length then .error (.oversized whole.length)
    else
      let value : Int := digitsValue whole
      .ok (.int (if negative then -value else value))
  else
    .ok (.real (String.ofList ((if negative then ['-'] else []) ++ whole ++ fraction ++ exponent)))

/-- The digits after the first one; nothing may follow a leading zero. -/
def splitWhole (first : Char) (rest : Text) : Text × Text :=
  if first == '0' then ([], rest) else (rest.takeWhile isDigit, rest.dropWhile isDigit)

private theorem length_splitWhole_le (first : Char) (rest : Text) :
    (splitWhole first rest).2.length ≤ rest.length := by
  unfold splitWhole
  split
  · exact Nat.le_refl _
  · exact (List.dropWhile_sublist isDigit).length_le

/-- An unsigned number. A leading zero is a whole part of its own. -/
def readUnsigned (negative : Bool) (text : Text) : Option (Except Failure (Step Json text)) :=
  match text with
  | [] => none
  | c :: rest =>
    if isDigit c then
      let whole := splitWhole c rest
      let fraction := splitFraction whole.2
      let exponent := splitExponent fraction.2
      some <| (number negative (c :: whole.1) fraction.1 exponent.1).map fun value =>
        ⟨value, exponent.2, Nat.lt_succ_of_le (Nat.le_trans (length_splitExponent_le _)
          (Nat.le_trans (length_splitFraction_le _) (length_splitWhole_le c rest)))⟩
    else none

def Step.weaken {α : Type} {text : Text} (c : Char) (step : Step α text) : Step α (c :: text) :=
  ⟨step.value, step.rest, Nat.lt_succ_of_lt step.shorter⟩

mutual

/-- Reads a value with so many levels left for arrays and objects in it. -/
def readValue (levels : Nat) (text : Text) : Except Failure (Step Json text) :=
  match text with
  | '"' :: rest => (readString rest).map fun step => ⟨.string step.value, step.rest, step.shorter⟩
  | '[' :: rest =>
    match levels, hrest : skipSpace rest with
    | 0, _ => .error (.tooDeep .array)
    | _ + 1, ']' :: after => .ok ⟨.array [], after, by
        have := length_skipSpace_le rest
        rw [hrest] at this; simp only [List.length_cons] at this ⊢; omega⟩
    | levels + 1, inner => do
      let step ← readItems levels inner
      return ⟨.array step.value, step.rest, by
        have := length_skipSpace_le rest
        have := step.shorter
        rw [hrest] at *; simp only [List.length_cons]; omega⟩
  | '\x7b' :: rest =>
    match levels, hrest : skipSpace rest with
    | 0, _ => .error (.tooDeep .object)
    | _ + 1, '\x7d' :: after => .ok ⟨.object [], after, by
        have := length_skipSpace_le rest
        rw [hrest] at this; simp only [List.length_cons] at this ⊢; omega⟩
    | levels + 1, inner => do
      let step ← readFields levels inner
      return ⟨ofFields step.value, step.rest, by
        have := length_skipSpace_le rest
        have := step.shorter
        rw [hrest] at *; simp only [List.length_cons]; omega⟩
  | 'n' :: 'u' :: 'l' :: 'l' :: rest => .ok ⟨.null, rest, by simp; omega⟩
  | 't' :: 'r' :: 'u' :: 'e' :: rest => .ok ⟨.bool true, rest, by simp; omega⟩
  | 'f' :: 'a' :: 'l' :: 's' :: 'e' :: rest => .ok ⟨.bool false, rest, by simp; omega⟩
  | 'N' :: 'a' :: 'N' :: rest => .ok ⟨.real "NaN", rest, by simp; omega⟩
  | 'I' :: 'n' :: 'f' :: 'i' :: 'n' :: 'i' :: 't' :: 'y' :: rest =>
    .ok ⟨.real "Infinity", rest, by simp; omega⟩
  | '-' :: 'I' :: 'n' :: 'f' :: 'i' :: 'n' :: 'i' :: 't' :: 'y' :: rest =>
    .ok ⟨.real "-Infinity", rest, by simp; omega⟩
  | '-' :: rest =>
    match readUnsigned true rest with
    | some result => result.map (Step.weaken '-')
    | none => .error (.malformed .value ('-' :: rest))
  | text =>
    match readUnsigned false text with
    | some result => result
    | none => .error (.malformed .value text)
termination_by (text.length, 0)
decreasing_by
  all_goals
    have := length_skipSpace_le rest
    rw [hrest] at this
    simp only [List.length_cons]
    exact Prod.Lex.left _ _ (by omega)

/-- The items of an array from its first one on, and the closing bracket. -/
def readItems (levels : Nat) (text : Text) : Except Failure (Step (List Json) text) := do
  let item ← readValue levels text
  match hafter : skipSpace item.rest with
  | ']' :: rest => return ⟨[item.value], rest, by
      have := length_skipSpace_le item.rest
      have := item.shorter
      simp only [hafter, List.length_cons] at *; omega⟩
  | ',' :: rest =>
    let more ← readItems levels (skipSpace rest)
    return ⟨item.value :: more.value, more.rest, by
      have := length_skipSpace_le item.rest
      have := length_skipSpace_le rest
      have := item.shorter
      have := more.shorter
      simp only [hafter, List.length_cons] at *; omega⟩
  | rest => throw (.malformed .comma rest)
termination_by (text.length, 1)
decreasing_by
  · exact Prod.Lex.right _ (by omega)
  · have := length_skipSpace_le item.rest
    have := length_skipSpace_le rest
    have := item.shorter
    simp only [hafter, List.length_cons] at *
    exact Prod.Lex.left _ _ (by omega)

/-- The fields of an object from its first name on, and the closing brace. -/
def readFields (levels : Nat) (text : Text) :
    Except Failure (Step (List (WideString × Json)) text) :=
  match htext : text with
  | '"' :: inner => do
    let name ← readString inner
    match hname : skipSpace name.rest with
    | ':' :: after =>
      let item ← readValue levels (skipSpace after)
      match hafter : skipSpace item.rest with
      | '\x7d' :: rest => return ⟨[(name.value, item.value)], rest, by
          have := length_skipSpace_le name.rest
          have := length_skipSpace_le after
          have := length_skipSpace_le item.rest
          have := name.shorter
          have := item.shorter
          simp only [hname, hafter, List.length_cons] at *; omega⟩
      | ',' :: rest =>
        let more ← readFields levels (skipSpace rest)
        return ⟨(name.value, item.value) :: more.value, more.rest, by
          have := length_skipSpace_le name.rest
          have := length_skipSpace_le after
          have := length_skipSpace_le item.rest
          have := length_skipSpace_le rest
          have := name.shorter
          have := item.shorter
          have := more.shorter
          simp only [hname, hafter, List.length_cons] at *; omega⟩
      | rest => throw (.malformed .comma rest)
    | rest => throw (.malformed .colon rest)
  | text => .error (.malformed .name text)
termination_by (text.length, 1)
decreasing_by
  · have := length_skipSpace_le name.rest
    have := length_skipSpace_le after
    have := name.shorter
    simp only [hname, List.length_cons] at *
    exact Prod.Lex.left _ _ (by omega)
  · have := length_skipSpace_le name.rest
    have := length_skipSpace_le after
    have := length_skipSpace_le item.rest
    have := length_skipSpace_le rest
    have := name.shorter
    have := item.shorter
    simp only [hname, hafter, List.length_cons] at *
    exact Prod.Lex.left _ _ (by omega)

end

def readDocument (levels : Nat) (text : Text) : Except Failure Json :=
  match text with
  | c :: rest =>
    if c.toNat == 0xFEFF then .error (.malformed .byteOrderMark (c :: rest)) else readTop (c :: rest)
  | [] => readTop []
where
  readTop (text : Text) : Except Failure Json := do
    let step ← readValue levels (skipSpace text)
    match skipSpace step.rest with
    | [] => return step.value
    | rest => throw (.malformed .extraData rest)

/-- One value with nothing but white space around it, nested in so many levels at most. -/
def parseWithin (levels : Nat) (text : Text) : Except ReadError Json :=
  match readDocument levels text with
  | .ok value => .ok value
  | .error (.oversized digits) => .error (.oversized digits)
  | .error (.tooDeep innermost) => .error (.tooDeep innermost)
  | .error (.malformed fault rest) =>
    .error (.malformed fault (Text.positionOf text (text.length - rest.length)).line)

def parse (text : Text) : Except ReadError Json := parseWithin maxDepth text

end OverrideLint.Json
