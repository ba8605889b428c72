import OverrideLint.Json.Reader

/-! The grammar of JSON, apart from any reader: which texts spell which values. Integers are spelled
with so many digits at most, and arrays and objects stand in each other so many levels deep at most,
so that the limits of a reader can be told from the rules of the language. -/
namespace OverrideLint.Json

def IsBlank (text : Text) : Prop := ∀ c ∈ text, isSpace c = true

def IsDigits (text : Text) : Prop := ∀ c ∈ text, isDigit c = true

inductive IsWhole : Text → Prop
  | zero : IsWhole ['0']
  | digits {first : Char} {rest : Text} (hfirst : isDigit first = true) (hzero : first ≠ '0')
      (hrest : IsDigits rest) : IsWhole (first :: rest)

inductive IsFraction : Text → Prop
  | absent : IsFraction []
  | point {first : Char} {rest : Text} (hfirst : isDigit first = true) (hrest : IsDigits rest) :
    IsFraction ('.' :: first :: rest)

inductive IsExponent : Text → Prop
  | absent : IsExponent []
  | power {letter : Char} {sign : Text} {first : Char} {rest : Text}
      (hletter : letter = 'e' ∨ letter = 'E') (hsign : sign = [] ∨ sign = ['+'] ∨ sign = ['-'])
      (hfirst : isDigit first = true) (hrest : IsDigits rest) :
    IsExponent (letter :: (sign ++ first :: rest))

def minus (negative : Bool) : Text := if negative then ['-'] else []

/-- Numbers. One without a fraction and an exponent is an integer, any other is kept as written. -/
inductive SpellsNumber (digits : Nat) : Json → Text → Prop
  | int (negative : Bool) {whole : Text} (hwhole : IsWhole whole)
      (hlength : whole.length ≤ digits) :
    SpellsNumber digits (.int (if negative then -(digitsValue whole : Int) else digitsValue whole))
      (minus negative ++ whole)
  | real (negative : Bool) {whole fraction exponent : Text} (hwhole : IsWhole whole)
      (hfraction : IsFraction fraction) (hexponent : IsExponent exponent)
      (hparts : fraction ≠ [] ∨ exponent ≠ []) :
    SpellsNumber digits (.real (String.ofList (minus negative ++ whole ++ fraction ++ exponent)))
      (minus negative ++ (whole ++ (fraction ++ exponent)))

inductive SpellsWord : Json → Text → Prop
  | null : SpellsWord .null ['n', 'u', 'l', 'l']
  | yes : SpellsWord (.bool true) ['t', 'r', 'u', 'e']
  | no : SpellsWord (.bool false) ['f', 'a', 'l', 's', 'e']
  | notANumber : SpellsWord (.real "NaN") ['N', 'a', 'N']
  | infinite : SpellsWord (.real "Infinity") ['I', 'n', 'f', 'i', 'n', 'i', 't', 'y']
  | minusInfinite : SpellsWord (.real "-Infinity") ['-', 'I', 'n', 'f', 'i', 'n', 'i', 't', 'y']

def StartsLow (text : Text) : Prop :=
  ∃ a b c d low rest, text = '\\' :: 'u' :: a :: b :: c :: d :: rest ∧
    hexUnit? a b c d = some low ∧ isLowSurrogate low = true

/-- What stands between the quotes of a string, and the code points that it stands for. Two
escapes that are the halves of a surrogate pair are one character; any other escape of a unit is the
code point with that code, be it a surrogate or not. -/
inductive SpellsPoints : List CodePoint → Text → Prop
  | nil : SpellsPoints [] []
  | plain {c : Char} {points : List CodePoint} {text : Text} (hcontrol : ¬ c.toNat < 0x20)
      (hquote : c ≠ '"') (hescape : c ≠ '\\') (h : SpellsPoints points text) :
    SpellsPoints (.char c :: points) (c :: text)
  | short {c char : Char} {points : List CodePoint} {text : Text}
      (hchar : shortEscape? c = some char) (h : SpellsPoints points text) :
    SpellsPoints (.char char :: points) ('\\' :: c :: text)
  | unit {a b c d : Char} {point : CodePoint} {points : List CodePoint} {text : Text}
      (hunit : hexUnit? a b c d = some point.code)
      (halone : isHighSurrogate point.code = true → ¬ StartsLow text)
      (h : SpellsPoints points text) :
    SpellsPoints (point :: points) ('\\' :: 'u' :: a :: b :: c :: d :: text)
  | pair {a b c d e f g i char : Char} {high low : Nat} {points : List CodePoint} {text : Text}
      (hhigh : hexUnit? a b c d = some high) (hisHigh : isHighSurrogate high = true)
      (hlow : hexUnit? e f g i = some low) (hisLow : isLowSurrogate low = true)
      (hchar : char.toNat = pairCode high low) (h : SpellsPoints points text) :
    SpellsPoints (.char char :: points)
      ('\\' :: 'u' :: a :: b :: c :: d :: '\\' :: 'u' :: e :: f :: g :: i :: text)

inductive Phrase
  | value (value : Json)
  | items (items : List Json)
  | field (field : WideString × Json)
  | fields (fields : List (WideString × Json))

/-- A text spells a phrase, with the given levels left for arrays and objects. -/
inductive Spells (digits : Nat) : Nat → Phrase → Text → Prop
  | word (levels : Nat) {value : Json} {text : Text} (h : SpellsWord value text) :
    Spells digits levels (.value value) text
  | number (levels : Nat) {value : Json} {text : Text} (h : SpellsNumber digits value text) :
    Spells digits levels (.value value) text
  | string (levels : Nat) {points : List CodePoint} {text : Text} (h : SpellsPoints points text) :
    Spells digits levels (.value (.string ⟨points⟩)) ('"' :: (text ++ ['"']))
  | emptyArray (levels : Nat) {blank : Text} (hblank : IsBlank blank) :
    Spells digits (levels + 1) (.value (.array [])) ('[' :: (blank ++ [']']))
  | array {levels : Nat} {items : List Json} {before text after : Text} (hbefore : IsBlank before)
      (h : Spells digits levels (.items items) text) (hafter : IsBlank after) :
    Spells digits (levels + 1) (.value (.array items))
      ('[' :: (before ++ (text ++ (after ++ [']']))))
  | emptyObject (levels : Nat) {blank : Text} (hblank : IsBlank blank) :
    Spells digits (levels + 1) (.value (.object [])) ('\x7b' :: (blank ++ ['\x7d']))
  | object {levels : Nat} {fields : List (WideString × Json)} {before text after : Text}
      (hbefore : IsBlank before) (h : Spells digits levels (.fields fields) text)
      (hafter : IsBlank after) :
    Spells digits (levels + 1) (.value (ofFields fields))
      ('\x7b' :: (before ++ (text ++ (after ++ ['\x7d']))))
  | lastItem {levels : Nat} {value : Json} {text : Text}
      (h : Spells digits levels (.value value) text) : Spells digits levels (.items [value]) text
  | items {levels : Nat} {value : Json} {items : List Json} {text before after rest : Text}
      (h : Spells digits levels (.value value) text) (hbefore : IsBlank before)
      (hafter : IsBlank after) (hrest : Spells digits levels (.items items) rest) :
    Spells digits levels (.items (value :: items)) (text ++ (before ++ ',' :: (after ++ rest)))
  | field {levels : Nat} {value : Json} {name : List CodePoint} {key before after text : Text}
      (hname : SpellsPoints name key) (hbefore : IsBlank before) (hafter : IsBlank after)
      (h : Spells digits levels (.value value) text) :
    Spells digits levels (.field (⟨name⟩, value))
      ('"' :: (key ++ '"' :: (before ++ ':' :: (after ++ text))))
  | lastField {levels : Nat} {field : WideString × Json} {text : Text}
      (h : Spells digits levels (.field field) text) : Spells digits levels (.fields [field]) text
  | fields {levels : Nat} {field : WideString × Json} {fields : List (WideString × Json)}
      {text before after rest : Text} (h : Spells digits levels (.field field) text)
      (hbefore : IsBlank before) (hafter : IsBlank after)
      (hrest : Spells digits levels (.fields fields) rest) :
    Spells digits levels (.fields (field :: fields)) (text ++ (before ++ ',' :: (after ++ rest)))

def IsDocument (digits levels : Nat) (value : Json) (text : Text) : Prop :=
  ∃ before inner after, text = before ++ (inner ++ after) ∧ IsBlank before ∧ IsBlank after ∧
    Spells digits levels (.value value) inner

end OverrideLint.Json
