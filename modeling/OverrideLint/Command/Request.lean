import OverrideLint.Command.Basic
import OverrideLint.ParseTree.Rows

/-! What a run needs to be told besides its arguments: the working directory, the
files there are, and the trees of the texts that may have to be parsed. -/
namespace OverrideLint.Command

structure Request where
  cwd : List String
  paths : List String
  trees : Parser.Table

namespace Request

def ofJson? (value : Json) : Option Request := do
  let cwd ← (← value.field? "cwd").asPlain?
  let paths ← (← (← value.field? "files").asList?).mapM Json.asPlain?
  let trees ← (← (← value.field? "trees").asList?).mapM Parser.entryOfJson?
  return ⟨Path.simplify (Path.parts cwd), paths, trees⟩

def ofText? (text : Text) : Option Request :=
  match Json.parse text with
  | .ok value => ofJson? value
  | .error _ => none

/-- The place of a file, seen from the root. -/
def place (request : Request) (path : String) : List String :=
  (Path.Absolute.ofPath request.cwd path).names

/-- The files with their contents. -/
def fileSystem (request : Request) (contents : List (String × Bytes)) : FileSystem where
  root := contents.foldl
    (fun root (path, content) =>
      let place := request.place path
      Entry.insert (.file (place.getLast?.getD "") content) place.dropLast root)
    (Entry.ensure request.cwd (.directory "" []))
  cwd := request.cwd

/-- The files whose contents a run has changed. -/
def changes (request : Request) (contents : List (String × Bytes)) (files : FileSystem) :
    List (String × Bytes) :=
  contents.filterMap fun (path, old) =>
    match files.root.get? (request.place path) with
    | some (.file _ content) => if content = old then none else some (path, content)
    | _ => none

end Request
end OverrideLint.Command
