import OverrideLint.Files.Path
import OverrideLint.ParseTree.Basic

/-! The two grammars of source files, chosen by the suffix of the file name. -/
namespace OverrideLint

inductive Language
  | ts
  | tsx
deriving DecidableEq, Repr

namespace Language

def bySuffix : List (String × Language) :=
  [(".ts", ts), (".mts", ts), (".cts", ts), (".tsx", tsx)]

def ofFile? (file : String) : Option Language :=
  bySuffix.lookup (String.ofList (Text.lower (Path.suffixOf file.toList)))

/-- Files with any other suffix are read as plain sources. -/
def ofFile (file : String) : Language := (ofFile? file).getD ts

def supports (file : String) : Bool := (ofFile? file).isSome

end Language

/-- What a parser makes of a text. -/
abbrev Parser := Language → Text → ParsedText

end OverrideLint
