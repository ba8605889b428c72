import OverrideLint.Command.Request

/-! The program: a request on standard input, options and paths as arguments. -/
namespace OverrideLint.Command

partial def readAll (input : IO.FS.Stream) (before : String) : IO String := do
  let line ← input.getLine
  if line.isEmpty then return before else readAll input (before ++ line)

def runRequest (request : Request) (arguments : List String) : IO UInt32 := do
  let contents ← request.paths.mapM fun (path : String) => do
    return (path, (← IO.FS.readBinFile path).toList)
  let output ← IO.getStdout
  let errors ← IO.getStderr
  let console : Console := ⟨← output.isTty, (← IO.getEnv "NO_COLOR").isSome⟩
  let outcome :=
    run (Parser.ofTable request.trees) console (request.fileSystem contents) arguments
  errors.putStr outcome.errors
  output.putStr outcome.output
  for (path, content) in request.changes contents outcome.files do
    IO.FS.writeBinFile path ⟨content.toArray⟩
  return UInt32.ofNat outcome.status

end OverrideLint.Command

def main (arguments : List String) : IO UInt32 := do
  let input ← OverrideLint.Command.readAll (← IO.getStdin) ""
  match OverrideLint.Command.Request.ofText? input.toList with
  | none => return 2
  | some request => OverrideLint.Command.runRequest request arguments
