import OverrideLint.Diagnostic

/-! The options of the command line, with their names and what they take. -/
namespace OverrideLint

inductive Flag
  | help
  | version
  | verbose
  | fix
  | format
  | config
  | types
  | noIndex
  | severity
deriving DecidableEq, Repr

namespace Flag

def all : List Flag :=
  [help, version, verbose, fix, format, config, types, noIndex, severity]

def names : Flag → List String
  | help => ["-h", "--help"]
  | version => ["--version"]
  | verbose => ["-v", "--verbose"]
  | fix => ["--fix"]
  | format => ["-f", "--format"]
  | config => ["-c", "--config"]
  | types => ["--types"]
  | noIndex => ["--no-index"]
  | severity => ["--severity"]

def takesValue : Flag → Bool
  | format | config | types | severity => true
  | _ => false

/-- The values that an option allows, if it does not allow any. -/
def choices : Flag → Option (List String)
  | format => some ["gcc", "json", "summary"]
  | severity => some (Severity.all.map (·.name))
  | _ => none

/-- An option as messages name it. -/
def title (flag : Flag) : String := "/".intercalate flag.names

/-- All names with their options, in the order in which they are listed. -/
def byName : List (String × Flag) :=
  all.flatMap fun flag => flag.names.map (·, flag)

def ofName? (name : String) : Option Flag := byName.lookup name

end Flag
end OverrideLint
