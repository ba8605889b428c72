import OverrideLint.Json.Value
import OverrideLint.ParseTree.Language

/-! Concrete trees as rows of JSON, in pre-order. A row has the rule and the name flag
of a node, its byte range, its field, and the number of its children. -/
namespace OverrideLint

structure TreeRow where
  type : String
  named : Bool
  range : ByteRange
  field : Option String
  count : Nat
deriving DecidableEq, Repr

namespace TreeRow

def ofJson? : Json → Option TreeRow
  | .array [type, named, .int start, .int stop, field, .int count] => do
    return ⟨← type.asPlain?, ← named.asFlag?, ⟨start, stop⟩, field.asPlain?, count.toNat⟩
  | _ => none

/-- Puts a node in front of a row of trees; the first of them become its children. -/
def grow (row : TreeRow) (trees : List ParseTree) : List ParseTree :=
  .node row.type row.named row.range row.field (trees.take row.count) :: trees.drop row.count

end TreeRow

/-- The tree of a list of rows, built from the last row to the first. -/
def ParseTree.ofRows? (rows : List TreeRow) : Option ParseTree :=
  (rows.foldr TreeRow.grow []).head?

namespace ParsedText

def ofJson? (value : Json) : Option ParsedText := do
  let rows ← ((← (← value.field? "nodes").asList?).mapM TreeRow.ofJson?)
  let root ← ParseTree.ofRows? rows
  return ⟨((value.field? "has_error").bind Json.asFlag?).getD false, root⟩

/-- What stands for a text that nothing is known of. -/
def blank : ParsedText := ⟨false, .node "program" true ⟨0, 0⟩ none []⟩

end ParsedText

namespace Parser

/-- A parser that knows some texts in advance. -/
abbrev Table := List ((Language × String) × ParsedText)

def ofTable (table : Table) : Parser := fun language text =>
  (table.lookup (language, String.ofList text)).getD .blank

def entryOfJson? (value : Json) : Option ((Language × String) × ParsedText) := do
  let language := if (← (← value.field? "lang").asPlain?) = "tsx" then Language.tsx else .ts
  return ((language, ← (← value.field? "text").asPlain?), ← ParsedText.ofJson? value)

end Parser
end OverrideLint
