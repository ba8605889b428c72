import OverrideLint.Files.FileSystem
import OverrideLint.ParseTree.Conversion
import OverrideLint.ParseTree.Language

/-! Source files from disk. All kinds of line breaks are read as line feeds. -/
namespace OverrideLint

inductive SourceError
  | nullInPath
  | notFound (path : String)
  | unreadable (path : String) (cause : PathError)
  | undecodable (path : String) (cause : Utf8.DecodeError)
  | misfit (cause : RangeError)
deriving DecidableEq, Repr

namespace SourceError

def message : SourceError → String
  | nullInPath => Path.nullMessage
  | notFound path => s!"source file not found: {path}"
  | unreadable path cause => s!"cannot read {path}: {cause.message path}"
  | undecodable path cause => s!"cannot read {path}: {cause.message}"
  | misfit cause => cause.message

/-- A path that no file can have and a tree that does not fit its text are faults, not
problems of the file. -/
def problem? : SourceError → Option Problem
  | notFound path => some ⟨.sourceNotFound, (notFound path).message, none⟩
  | nullInPath => none
  | misfit _ => none
  | error => some (.source error.message)

end SourceError

namespace SourceFile

/-- The text of a file. -/
def readText (fs : FileSystem) (path : String) : Except SourceError Text :=
  if Path.hasNull path then .error .nullInPath
  else match fs.read path with
    | .error .notFound => .error (.notFound path)
    | .error cause => .error (.unreadable path cause)
    | .ok content =>
      match Utf8.decode content with
      | .error cause => .error (.undecodable path cause)
      | .ok text => .ok (Text.normalizeBreaks text)

def parse (parser : Parser) (file : String) (text : Text) :
    Converted SourceFile :=
  ofParsed file text (parser (Language.ofFile file) text)

def load (fs : FileSystem) (parser : Parser) (path : String) :
    ExceptT SourceError Logged SourceFile := do
  let text ← readText fs path
  ExceptT.adapt SourceError.misfit (parse parser path text)

end SourceFile
end OverrideLint
