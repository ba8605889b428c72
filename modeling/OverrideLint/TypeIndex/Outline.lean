import OverrideLint.Json.Value
import OverrideLint.Problem

/-! The outline of a type: its name, its own members and its bases. A stub gives one
for a library type, as an object with `members` and `extends` or as the list of
member names. -/
namespace OverrideLint

inductive StubError
  | notAnObject (name : WideString)
  | notNames (name : WideString)
  | notAListing (kind : String)
deriving DecidableEq, Repr

namespace StubError

def message : StubError → WideString
  | notAnObject name => "type stub '" ++ name ++ "' must be an object or a list of member names"
  | notNames name => "type stub '" ++ name ++ "' must list member and base names as strings"
  | notAListing kind => s!"'{kind}' object is not iterable"

/-- A value that lists nothing is no problem of the configuration but a fault. -/
def problem? : StubError → Option Problem
  | notAListing _ => none
  | error => some (.config error.message)

end StubError

structure TypeOutline where
  name : WideString
  members : List WideString
  bases : List WideString
deriving DecidableEq, Repr

namespace TypeOutline

/-- The names that a value lists. -/
def names (stub : WideString) (value : Json) : Except StubError (List WideString) :=
  match value.listing? with
  | none => .error (.notAListing value.kindName)
  | some items =>
    match items.mapM Json.asString? with
    | none => .error (.notNames stub)
    | some found => .ok found

/-- The names in an optional field. -/
def fieldNames (stub : WideString) (fields : List (WideString × Json)) (key : WideString) :
    Except StubError (List WideString) :=
  match fields.lookup key with
  | none => .ok []
  | some value => names stub value

def ofStub (name : WideString) (body : Json) : Except StubError TypeOutline :=
  match body with
  | .array items => (names name (.array items)).map (⟨name, ·, []⟩)
  | .object fields => do
    let members ← fieldNames name fields "members"
    let bases ← fieldNames name fields "extends"
    return ⟨name, members, bases⟩
  | _ => .error (.notAnObject name)

end TypeOutline
end OverrideLint
