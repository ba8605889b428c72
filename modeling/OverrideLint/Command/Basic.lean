import OverrideLint.Command.Check

/-! The command line as a whole: arguments and files in, output, log lines, an exit
status and files out. -/
namespace OverrideLint.Command

/-- Whether the output is a terminal, and whether colours are unwanted. -/
structure Console where
  terminal : Bool := false
  noColour : Bool := false

def Console.coloured (console : Console) : Bool := console.terminal && !console.noColour

structure Outcome where
  status : Nat
  output : String
  errors : String
  files : FileSystem
  /-- The command line was refused, and nothing was run. -/
  refused : Bool := false
  /-- The run ended in a fault. -/
  crashed : Bool := false

def programName : String := "override-jsdoc"

/-- The least level that is shown. -/
def threshold : Nat → Level
  | 0 => .warning
  | 1 => .info
  | _ => .debug

/-- The name of a level, five characters wide. -/
def levelField (level : Level) : String :=
  let name := level.name.toList
  String.ofList (name.take 5 ++ List.replicate (5 - name.length) ' ')

def logLine (entry : LogEntry) : String :=
  s!"[{levelField entry.level}] {entry.component.name}: {entry.message.shown}\n"

def shownLog (verbosity : Nat) (log : List LogEntry) : String :=
  String.join ((log.filter fun entry => (threshold verbosity).rank ≤ entry.level.rank).map logLine)

def refuse (files : FileSystem) : Refusal → Outcome
  | .usage error =>
    { status := 2, output := "", errors := s!"{programName}: error: {error.message}\n", files,
      refused := true }
  | .version =>
    { status := 0, output := s!"{programName} {Rule.version}\n", errors := "", files,
      refused := true }
  | .help => { status := 0, output := "", errors := "", files, refused := true }

/-- The outcome of a run that was started. -/
def conclude (options : Options) (run : Logged (Except Halt Result × Workspace)) : Outcome :=
  let files := run.value.2.files
  let halted (output : String) (halt : Halt) : Outcome :=
    { status := 2, output, errors := shownLog options.verbosity (run.log ++ [halt.entry]), files,
      crashed := halt matches .crashed _ }
  match run.value.1 with
  | .error halt => halted "" halt
  | .ok result =>
    match result.report.fault with
    | some fault => halted result.report.output (.crashed fault.message)
    | none =>
      { status := result.status, output := result.report.output,
        errors := shownLog options.verbosity run.log, files }

def run (parser : Parser) (console : Console) (files : FileSystem) (arguments : List String) :
    Outcome :=
  match Options.read arguments with
  | .error refusal => refuse files refusal
  | .ok options =>
    conclude options ((check parser console.coloured options).run { files })

end OverrideLint.Command
