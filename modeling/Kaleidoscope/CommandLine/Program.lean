import Kaleidoscope.CommandLine.Folder
import Kaleidoscope.Session

/-!
# The program

From arguments and the standard input to what the program prints, logs and returns. How arguments
are understood and what opening a file comes to is the business of the host on which the program
runs, and is left open here; a host with a folder of files, on which arguments are taken from left
to right, comes last. All settings are checked before the input is looked at, so a failure leaves
nothing printed.
-/

namespace Kaleidoscope.CommandLine

/-- What a program says beside its output. -/
inductive Report where
  /-- The arguments have no meaning. -/
  | usage (error : UsageError)
  /-- The run did not take place. -/
  | failure (failure : Failure)
  /-- The events that the log keeps. -/
  | log (events : List Event)

/-- What a program leaves behind. -/
structure Outcome where
  /-- The exit code, zero for success. -/
  exitCode : Nat
  /-- The text on the standard output. -/
  output : String
  /-- What is said beside it. -/
  report : Report

/-- The name and the version, on one line. -/
def versionLines : List String := ["kaleidoscope 0.1.0"]

/-- The lines of the description of the arguments. -/
def helpLines : List String := [
  "kaleidoscope 0.1.0",
  "the kaleidoscope language front end: lexer and operator-precedence parser",
  "",
  "USAGE:",
  "    kaleidoscope [FLAGS] [OPTIONS] [--] [FILE]",
  "",
  "FLAGS:",
  "    -h, --help       Prints help information",
  "    -p, --print      Prints every parsed form",
  "    -V, --version    Prints version information",
  "",
  "OPTIONS:",
  "        --max-depth <N>              Maximum expression nesting depth",
  "    -o, --operator <CHAR=PREC>...    Registers an extra binary operator",
  "",
  "ARGS:",
  "    <FILE>    Source file to parse; reads stdin when omitted"]

/-- Lines of text, each with its end. -/
def unlines (lines : List String) : String := String.join (lines.map fun line => line ++ "\n")

/-- A run whose settings are in order. -/
structure Job where
  /-- The configuration. -/
  config : Config
  /-- Whether the forms are printed. -/
  print : Bool
  /-- The file to read instead of the standard input. -/
  file? : Option String

/-- What is to be done after the arguments have been looked at. -/
inductive Plan where
  /-- Nothing; this is what the program leaves behind. -/
  | done (outcome : Outcome)
  /-- A run. -/
  | job (job : Job)

/-- The outcome of a run that does not take place. -/
def Outcome.ofFailure (failure : Failure) : Outcome := ⟨1, "", .failure failure⟩

/-- What is to be done about what the arguments ask for, or about their having no meaning. -/
def Plan.ofRequest : Except UsageError Request → Plan
  | .error error => .done ⟨1, "", .usage error⟩
  | .ok .help => .done ⟨0, unlines helpLines, .log []⟩
  | .ok .version => .done ⟨0, unlines versionLines, .log []⟩
  | .ok (.run options) =>
    match options.config with
    | .error failure => .done (.ofFailure failure)
    | .ok config => .job ⟨config, options.print, options.file?⟩

namespace Job

/-- Carries a job out on an input. -/
def execute (job : Job) (verbosity : Verbosity) (input : List InputEvent) : Outcome :=
  let run := (Feed.start (Lines.ofEvents input)).run job.config
  let events := run.feed.log.toList ++ [.finished run.parsed run.failed]
  { exitCode := if run.failed = 0 then 0 else 1
    output := if job.print then unlines (run.forms.map Form.text) else ""
    report := .log (events.filter verbosity.keeps) }

end Job

/-- What surrounds the program. -/
structure Host where
  /-- What a list of arguments asks for, or why it has no meaning. -/
  request : List String → Except UsageError Request
  /-- What the reading of the file at a path meets with, or why the file cannot be opened. -/
  openFile : String → Except OpenFault (List InputEvent)

namespace Host

/-- What is to be done on a list of arguments. -/
def plan (host : Host) (arguments : List String) : Plan := .ofRequest (host.request arguments)

/-- Carries the program out on arguments and a standard input. -/
def run (host : Host) (arguments : List String) (verbosity : Verbosity)
    (standardInput : List InputEvent) : Outcome :=
  match host.plan arguments with
  | .done outcome => outcome
  | .job job =>
    match job.file? with
    | none => job.execute verbosity standardInput
    | some path =>
      match host.openFile path with
      | .ok input => job.execute verbosity input
      | .error fault => .ofFailure (.unopened path fault)

/-- The host that takes arguments from left to right and finds files in a folder. -/
def ofFolder (folder : Folder) : Host :=
  ⟨Request.ofArguments, fun path => (folder.resolve path).map Place.events⟩

end Host

/-- What is to be done on a list of arguments that is taken from left to right. -/
def Plan.ofArguments (arguments : List String) : Plan :=
  .ofRequest (Request.ofArguments arguments)

/-- Carries the program out on arguments, a standard input and a folder. -/
def run (arguments : List String) (verbosity : Verbosity) (standardInput : List UInt8)
    (folder : Folder) : Outcome :=
  (Host.ofFolder folder).run arguments verbosity [.bytes standardInput]

end Kaleidoscope.CommandLine
