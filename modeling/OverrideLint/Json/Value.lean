import OverrideLint.Text.CodePoint

/-! JSON values. The fields of an object keep their order; a field given twice has
its last value at its first place. -/
namespace OverrideLint

inductive Json
  | null
  | bool (value : Bool)
  | int (value : Int)
  | real (literal : String)
  | string (value : WideString)
  | array (items : List Json)
  | object (fields : List (WideString × Json))

namespace Json

/-- The word for the kind of a value in messages. -/
def kindName : Json → String
  | null => "NoneType"
  | bool _ => "bool"
  | int _ => "int"
  | real _ => "float"
  | string _ => "str"
  | array _ => "list"
  | object _ => "dict"

def setField (fields : List (WideString × Json)) (key : WideString) (value : Json) :
    List (WideString × Json) :=
  if fields.any (·.1 == key) then
    fields.map fun field => if field.1 == key then (key, value) else field
  else fields ++ [(key, value)]

def ofFields (fields : List (WideString × Json)) : Json :=
  object (fields.foldl (fun known field => setField known field.1 field.2) [])

def asString? : Json → Option WideString
  | string value => some value
  | _ => none

/-- A string without surrogates. -/
def asPlain? (value : Json) : Option String := value.asString?.bind WideString.toString?

/-- The value of a field of an object. -/
def field? (value : Json) (key : WideString) : Option Json :=
  match value with
  | object fields => fields.lookup key
  | _ => none

/-- A truth value, also when it is given as zero or one. -/
def asFlag? : Json → Option Bool
  | bool value => some value
  | int value => some (value != 0)
  | _ => none

def asList? : Json → Option (List Json)
  | array items => some items
  | _ => none

/-- What a value lists: the items of an array, the code points of a string, the keys
of an object. Other values list nothing. -/
def listing? : Json → Option (List Json)
  | array items => some items
  | string value => some (value.points.map fun point => string ⟨[point]⟩)
  | object fields => some (fields.map fun field => string field.1)
  | _ => none

end Json
end OverrideLint
