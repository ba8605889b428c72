import OverrideLint.Command.Flag
import OverrideLint.Text.Word

/-! Reading the command line. Long options may be abbreviated, short ones written
together, and a value may be attached to its option. The paths stand in one run, and
a double dash ends the options. -/
namespace OverrideLint

structure Options where
  paths : List String := []
  verbosity : Nat := 0
  fix : Bool := false
  format : String := "gcc"
  config : Option String := none
  types : Option String := none
  noIndex : Bool := false
  severity : Option String := none
deriving DecidableEq, Repr

inductive UsageError
  | ambiguous (option : String) (candidates : List String)
  | missingValue (flag : Flag)
  | unwantedValue (flag : Flag) (value : String)
  | invalidChoice (flag : Flag) (value : String) (allowed : List String)
  | missingPaths
  | unrecognized (arguments : List String)
deriving DecidableEq, Repr

def UsageError.message : UsageError → String
  | ambiguous option candidates =>
    let names := ", ".intercalate candidates
    s!"ambiguous option: {option} could match {names}"
  | missingValue flag => s!"argument {flag.title}: expected one argument"
  | unwantedValue flag value =>
    s!"argument {flag.title}: ignored explicit argument {quotedString value}"
  | invalidChoice flag value allowed =>
    let names := ", ".intercalate (allowed.map quotedString)
    s!"argument {flag.title}: invalid choice: {quotedString value} (choose from {names})"
  | missingPaths => "the following arguments are required: PATH"
  | unrecognized arguments =>
    let names := " ".intercalate arguments
    s!"unrecognized arguments: {names}"

/-- Why a command line is not run. -/
inductive Refusal
  | usage (error : UsageError)
  | version
  | help
deriving DecidableEq, Repr

/-- What one argument is. Text may be attached to an option, behind an equals sign or,
to a short one, directly. -/
inductive Token
  | path (text : String)
  | separator
  | unknown (text : String)
  | option (flag : Flag) (short : Bool) (attached : Option Text)
deriving DecidableEq, Repr

namespace Token

/-- The part before the first equals sign, and the part after it if there is one. -/
def splitEquals (text : Text) : Text × Option Text :=
  (text.takeWhile (· != '='), (text.dropWhile (· != '=')).tail?)

/-- Numbers with a minus sign are taken for paths; a line feed at the end does not
matter. -/
def isNegativeNumber (text : Text) : Bool :=
  let text := if text.getLast? = some '\n' then text.dropLast else text
  match text with
  | '-' :: rest =>
    let after := rest.dropWhile Text.isDecimal
    match after with
    | [] => !rest.isEmpty
    | '.' :: digits => !digits.isEmpty && digits.all Text.isDecimal
    | _ => false
  | _ => false

/-- An argument that looks like an option and is none. -/
def ofStray (argument : String) : Token :=
  if isNegativeNumber argument.toList || argument.toList.contains ' ' then path argument
  else unknown argument

def ofLong (argument : String) : Except UsageError Token :=
  let parts := splitEquals argument.toList
  match Flag.byName.filter fun known => parts.1.isPrefixOf known.1.toList with
  | [] => .ok (ofStray argument)
  | [(_, flag)] => .ok (option flag false parts.2)
  | several => .error (.ambiguous argument (several.map (·.1)))

def ofShort (argument : String) : Token :=
  match Flag.ofName? (String.ofList (argument.toList.take 2)) with
  | some flag => option flag true (some (argument.toList.drop 2))
  | none => ofStray argument

def isLong (name : String) : Bool := ['-', '-'].isPrefixOf name.toList

def ofArgument (argument : String) : Except UsageError Token :=
  if argument.toList.head? ≠ some '-' then .ok (path argument)
  else match Flag.ofName? argument with
    | some flag => .ok (option flag (!isLong argument) none)
    | none =>
      if argument = "-" then .ok (path argument)
      else
        let parts := splitEquals argument.toList
        match Flag.ofName? (String.ofList parts.1), parts.2 with
        | some flag, some value => .ok (option flag (!isLong argument) (some value))
        | _, _ => if isLong argument then ofLong argument else .ok (ofShort argument)

/-- After a double dash every argument is a path. -/
def ofArguments : List String → Except UsageError (List Token)
  | [] => .ok []
  | argument :: rest =>
    if argument = "--" then .ok (separator :: rest.map path)
    else do
      let first ← ofArgument argument
      let others ← ofArguments rest
      return first :: others

end Token

/-- Where the run of paths stands: not met yet, being read, or over. -/
inductive PathRun
  | ahead
  | within
  | past
deriving DecidableEq, Repr

def PathRun.leave : PathRun → PathRun
  | ahead => ahead
  | _ => past

/-- The options read so far, the run of paths, and the arguments left over. -/
structure Reading where
  options : Options := {}
  run : PathRun := .ahead
  extras : List String := []

namespace Reading

/-- Sets an option that takes no value. -/
def switch (options : Options) : Flag → Except Refusal Options
  | .help => .error .help
  | .version => .error .version
  | .verbose => .ok { options with verbosity := options.verbosity + 1 }
  | .fix => .ok { options with fix := true }
  | .noIndex => .ok { options with noIndex := true }
  | _ => .ok options

/-- Sets an option to a value. -/
def store (options : Options) : Flag → String → Options
  | .format, value => { options with format := value }
  | .config, value => { options with config := some value }
  | .types, value => { options with types := some value }
  | .severity, value => { options with severity := some value }
  | _, _ => options

/-- Leaves an option without a value. -/
def clear (options : Options) : Flag → Options
  | .format => { options with format := "" }
  | .config => { options with config := none }
  | .types => { options with types := none }
  | .severity => { options with severity := none }
  | _ => options

/-- Gives an option its value, which must be one of its choices. A double dash is no
value: the option is then left without one. -/
def assign (options : Options) (flag : Flag) (value : String) : Except Refusal Options :=
  if value = "--" then .ok (clear options flag)
  else match flag.choices with
    | some allowed =>
      if allowed.contains value then .ok (store options flag value)
      else .error (.usage (.invalidChoice flag value allowed))
    | none => .ok (store options flag value)

/-- What an argument with options comes to: switches, then a value for the last option
or the wish for one. -/
structure Cluster where
  switches : List Flag := []
  value : Option (Flag × String) := none
  awaiting : Option Flag := none

/-- An option with nothing attached to it. -/
def Cluster.single (flag : Flag) : Cluster :=
  if flag.takesValue then { awaiting := some flag } else { switches := [flag] }

/-- Reads the text attached to a short option. It is the value of an option that takes
one, and otherwise starts with the letter of another option; the rest of the text is
attached to that one. -/
def readCluster (flag : Flag) : Text → Except UsageError Cluster
  | [] =>
    if flag.takesValue then .ok { value := some (flag, "") }
    else .error (.unwantedValue flag "")
  | c :: rest =>
    if flag.takesValue then .ok { value := some (flag, String.ofList (c :: rest)) }
    else match Flag.ofName? (String.ofList ['-', c]) with
      | none => .error (.unwantedValue flag (String.ofList (c :: rest)))
      | some next => do
        let more ← if rest.isEmpty then .ok (.single next) else readCluster next rest
        return { more with switches := flag :: more.switches }

/-- Reads an option with what is attached to it. -/
def readOption (flag : Flag) (short : Bool) : Option Text → Except UsageError Cluster
  | none => .ok (.single flag)
  | some text =>
    if short then readCluster flag text
    else if flag.takesValue then .ok { value := some (flag, String.ofList text) }
    else .error (.unwantedValue flag (String.ofList text))

/-- Sets the options of a cluster, with the value that the last one awaits. -/
def perform (reading : Reading) (cluster : Cluster) (awaited : Option String) :
    Except Refusal Reading := do
  let options ← cluster.switches.foldlM switch reading.options
  let options ← match cluster.value with
    | some (flag, value) => assign options flag value
    | none => .ok options
  let options ← match cluster.awaiting, awaited with
    | some flag, some value => assign options flag value
    | _, _ => .ok options
  return { reading with options, run := reading.run.leave }

/-- Takes a path into the run, or leaves it over. -/
def addPath (reading : Reading) (path : String) : Reading :=
  match reading.run with
  | .past => { reading with extras := reading.extras ++ [path] }
  | _ => { reading with
      options := { reading.options with paths := reading.options.paths ++ [path] }
      run := .within }

def addSeparator (reading : Reading) : Reading :=
  match reading.run with
  | .past => { reading with extras := reading.extras ++ ["--"] }
  | _ => reading

def addUnknown (reading : Reading) (argument : String) : Reading :=
  { reading with run := reading.run.leave, extras := reading.extras ++ [argument] }

def readTokens (reading : Reading) : List Token → Except Refusal Reading
  | [] => .ok reading
  | .path text :: rest => readTokens (reading.addPath text) rest
  | .separator :: rest => readTokens reading.addSeparator rest
  | .unknown text :: rest => readTokens (reading.addUnknown text) rest
  | .option flag short attached :: rest => do
    let cluster ← (readOption flag short attached).mapError Refusal.usage
    match cluster.awaiting, rest with
    | none, rest => readTokens (← reading.perform cluster none) rest
    | some _, .path value :: rest => readTokens (← reading.perform cluster (some value)) rest
    | some awaiting, _ => .error (.usage (.missingValue awaiting))

def finish (reading : Reading) : Except Refusal Options :=
  if reading.options.paths.isEmpty then .error (.usage .missingPaths)
  else if !reading.extras.isEmpty then .error (.usage (.unrecognized reading.extras))
  else .ok reading.options

end Reading

namespace Options

/-- The name of the command itself may stand first. -/
def dropCommand : List String → List String
  | "check" :: rest => rest
  | arguments => arguments

def read (arguments : List String) : Except Refusal Options := do
  let tokens ← (Token.ofArguments (dropCommand arguments)).mapError Refusal.usage
  let reading ← Reading.readTokens {} tokens
  reading.finish

end Options
end OverrideLint
