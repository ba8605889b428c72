import OverrideLint.Json.Reader

/-! The readers as equations between plain results. The result of a reader carries the proof that
it is shorter than the text; here it is a value and the rest. Arrays and objects are read in the
same two steps, from the opening bracket to the first item and from one item to the next. -/
namespace OverrideLint.Json

variable {α β : Type} {text : Text}

abbrev Result (α : Type) := Except Failure (α × Text)

namespace Result

def on (f : α → β) (result : Result α) : Result β :=
  result.map fun read => (f read.1, read.2)

def andThen (result : Result α) (next : α → Text → Result β) : Result β :=
  result.bind fun read => next read.1 read.2

end Result

def plain (result : Except Failure (Step α text)) : Result α :=
  result.map fun step => (step.value, step.rest)

def stringAt (text : Text) : Result WideString :=
  Result.on WideString.mk (readPoints ('"' :: text) text)

def numberAt (negative : Bool) (first : Char) (rest : Text) : Result Json :=
  let whole := splitWhole first rest
  let fraction := splitFraction whole.2
  let exponent := splitExponent fraction.2
  (number negative (first :: whole.1) fraction.1 exponent.1).map fun value => (value, exponent.2)

def unsignedAt (negative : Bool) : Text → Option (Result Json)
  | [] => none
  | first :: rest => if isDigit first then some (numberAt negative first rest) else none

def enclosedAt (nesting : Nesting) (close : Char) (items : Nat → Text → Result (List α)) :
    Nat → Text → Result (List α)
  | 0, _ => .error (.tooDeep nesting)
  | levels + 1, text =>
    let inner := skipSpace text
    if inner.head? = some close then .ok ([], inner.tail) else items levels inner

def continuedAt (close : Char) (items : Text → Result (List α)) (item : α) (rest : Text) :
    Result (List α) :=
  let after := skipSpace rest
  if after.head? = some close then .ok ([item], after.tail)
  else if after.head? = some ',' then (items (skipSpace after.tail)).on (item :: ·)
  else .error (.malformed .comma after)

private theorem head?_ne_of_forall_ne_cons {c : Char} (h : ∀ rest, text = c :: rest → False) :
    text.head? ≠ some c := fun hhead =>
  let ⟨rest, hrest⟩ := List.head?_eq_some_iff.1 hhead
  h rest hrest

section Brackets

variable {nesting : Nesting} {close : Char} {levels : Nat} {rest after : Text} {item : α}

theorem enclosedAt_close {items : Nat → Text → Result (List α)}
    (h : skipSpace text = close :: after) :
    enclosedAt nesting close items (levels + 1) text = .ok ([], after) := by
  simp [enclosedAt, h]

theorem enclosedAt_items {items : Nat → Text → Result (List α)}
    (h : (skipSpace text).head? ≠ some close) :
    enclosedAt nesting close items (levels + 1) text = items levels (skipSpace text) := by
  simp [enclosedAt, h]

variable {items : Text → Result (List α)}

theorem continuedAt_close (h : skipSpace rest = close :: after) :
    continuedAt close items item rest = .ok ([item], after) := by
  simp [continuedAt, h]

theorem continuedAt_comma (hclose : close ≠ ',') (h : skipSpace rest = ',' :: after) :
    continuedAt close items item rest = (items (skipSpace after)).on (item :: ·) := by
  simp [continuedAt, h, hclose.symm]

theorem continuedAt_other (hclose : (skipSpace rest).head? ≠ some close)
    (hcomma : (skipSpace rest).head? ≠ some ',') :
    continuedAt close items item rest = .error (.malformed .comma (skipSpace rest)) := by
  simp [continuedAt, hclose, hcomma]

end Brackets

section Equations

variable (levels : Nat) (text : Text)

def valueAt : Result Json := plain (readValue levels text)
def itemsAt : Result (List Json) := plain (readItems levels text)
def fieldsAt : Result (List (WideString × Json)) := plain (readFields levels text)

def fieldAfter (name : WideString) (rest : Text) : Result (WideString × Json) :=
  let after := skipSpace rest
  if after.head? = some ':' then
    (valueAt levels (skipSpace after.tail)).on fun value => (name, value)
  else .error (.malformed .colon after)

def fieldAt : Result (WideString × Json) :=
  if text.head? = some '"' then (stringAt text.tail).andThen (fieldAfter levels)
  else .error (.malformed .name text)

theorem fieldAfter_colon {levels : Nat} {name : WideString} {rest after : Text}
    (h : skipSpace rest = ':' :: after) :
    fieldAfter levels name rest =
      (valueAt levels (skipSpace after)).on fun value => (name, value) := by
  simp [fieldAfter, h]

theorem fieldAfter_other {levels : Nat} {name : WideString} {rest : Text}
    (h : (skipSpace rest).head? ≠ some ':') :
    fieldAfter levels name rest = .error (.malformed .colon (skipSpace rest)) := by
  simp [fieldAfter, h]

private theorem plain_readString : plain (readString text) = stringAt text := by
  unfold readString stringAt
  split <;> simp [plain, Result.on, Except.map, *]

private theorem map_plain_readUnsigned (negative : Bool) :
    (readUnsigned negative text).map plain = unsignedAt negative text := by
  cases text with
  | nil => rfl
  | cons first rest =>
    rw [readUnsigned, unsignedAt]
    split
    · unfold numberAt
      dsimp only
      cases number negative _ _ _ <;> rfl
    · rfl

def valueStep : Text → Result Json
  | '"' :: rest => (stringAt rest).on .string
  | '[' :: rest => (enclosedAt .array ']' itemsAt levels rest).on .array
  | '\x7b' :: rest => (enclosedAt .object '\x7d' fieldsAt levels rest).on ofFields
  | 'n' :: 'u' :: 'l' :: 'l' :: rest => .ok (.null, rest)
  | 't' :: 'r' :: 'u' :: 'e' :: rest => .ok (.bool true, rest)
  | 'f' :: 'a' :: 'l' :: 's' :: 'e' :: rest => .ok (.bool false, rest)
  | 'N' :: 'a' :: 'N' :: rest => .ok (.real "NaN", rest)
  | 'I' :: 'n' :: 'f' :: 'i' :: 'n' :: 'i' :: 't' :: 'y' :: rest => .ok (.real "Infinity", rest)
  | '-' :: 'I' :: 'n' :: 'f' :: 'i' :: 'n' :: 'i' :: 't' :: 'y' :: rest =>
    .ok (.real "-Infinity", rest)
  | '-' :: rest => (unsignedAt true rest).getD (.error (.malformed .value ('-' :: rest)))
  | text => (unsignedAt false text).getD (.error (.malformed .value text))

theorem valueAt_eq : valueAt levels text = valueStep levels text := by
  -- no equation of the reader can be stated, as its matches carry the lengths along
  unfold valueAt readValue
  split
  · rw [valueStep, ← plain_readString]
    cases readString _ <;> rfl
  · rw [valueStep]
    split
    · rfl
    · rename_i hclose
      rw [enclosedAt_close hclose]
      rfl
    · rename_i rest _ levels hother
      rw [enclosedAt_items (head?_ne_of_forall_ne_cons hother), itemsAt]
      cases readItems levels (skipSpace rest) <;> rfl
  · rw [valueStep]
    split
    · rfl
    · rename_i hclose
      rw [enclosedAt_close hclose]
      rfl
    · rename_i rest _ levels hother
      rw [enclosedAt_items (head?_ne_of_forall_ne_cons hother), fieldsAt]
      cases readFields levels (skipSpace rest) <;> rfl
  · rfl
  · rfl
  · rfl
  · rfl
  · rfl
  · rfl
  · rw [valueStep, ← map_plain_readUnsigned]
    · rcases readUnsigned true _ with _ | _ | _ <;> rfl
    · assumption
  · rw [valueStep, ← map_plain_readUnsigned]
    · cases readUnsigned false _ <;> rfl
    all_goals assumption

theorem itemsAt_eq : itemsAt levels text =
    (valueAt levels text).andThen (continuedAt ']' (itemsAt levels)) := by
  rw [itemsAt, readItems, valueAt]
  cases readValue levels text with
  | error => rfl
  | ok item =>
    change _ = continuedAt ']' (itemsAt levels) item.value item.rest
    simp only [bind, Except.bind]
    split
    · rename_i hclose
      rw [continuedAt_close hclose]
      rfl
    · rename_i rest hcomma
      rw [continuedAt_comma (by decide) hcomma, itemsAt]
      cases readItems levels (skipSpace rest) <;> rfl
    · rename_i hclose hcomma
      rw [continuedAt_other (head?_ne_of_forall_ne_cons hclose) (head?_ne_of_forall_ne_cons hcomma)]
      rfl

theorem fieldsAt_eq : fieldsAt levels text =
    (fieldAt levels text).andThen (continuedAt '\x7d' (fieldsAt levels)) := by
  rw [fieldsAt, fieldAt, readFields.eq_def]
  split
  · rename_i inner
    rw [List.head?_cons, if_pos rfl, List.tail_cons, ← plain_readString]
    cases readString inner with
    | error => rfl
    | ok name =>
      change _ = (fieldAfter levels name.value name.rest).andThen _
      simp only [bind, Except.bind]
      split
      · rename_i after hcolon
        rw [fieldAfter_colon hcolon, valueAt]
        cases readValue levels (skipSpace after) with
        | error => rfl
        | ok item =>
          change _ = continuedAt '\x7d' (fieldsAt levels) (name.value, item.value) item.rest
          dsimp only
          split
          · rename_i hclose
            rw [continuedAt_close hclose]
            rfl
          · rename_i rest hcomma
            rw [continuedAt_comma (by decide) hcomma, fieldsAt]
            cases readFields levels (skipSpace rest) <;> rfl
          · rename_i hclose hcomma
            rw [continuedAt_other (head?_ne_of_forall_ne_cons hclose)
              (head?_ne_of_forall_ne_cons hcomma)]
            rfl
      · rename_i hcolon
        rw [fieldAfter_other (head?_ne_of_forall_ne_cons hcolon)]
        rfl
  · rename_i hname
    rw [if_neg (head?_ne_of_forall_ne_cons hname)]
    rfl

end Equations

end OverrideLint.Json
