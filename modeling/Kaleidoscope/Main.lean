import Kaleidoscope.CommandLine.Program

/-!
# The executable

Carries the program out on the real arguments, files, streams and environment. An input is read to
its end first, and what is printed is written when all of its forms have been read.
-/

namespace Kaleidoscope.CommandLine

/-- The words of the system for a failed operation. -/
def reasonOf : IO.Error → String
  | .noFileOrDirectory _ code details => s!"{details} (os error {code})"
  | .inappropriateType _ code details => s!"{details} (os error {code})"
  | .permissionDenied _ code details => s!"{details} (os error {code})"
  | .invalidArgument _ code details => s!"{details} (os error {code})"
  | .hardwareFault code details => s!"{details} (os error {code})"
  | .otherError code details => s!"{details} (os error {code})"
  | error => error.toString

/-- Reads a handle to its end, portion by portion. -/
partial def readEvents (read : IO ByteArray) (done : List InputEvent) : IO (List InputEvent) := do
  match ← read.toBaseIO with
  | .ok portion =>
    if portion.isEmpty then return done.reverse
    else readEvents read (.bytes portion.toList :: done)
  | .error error => return (.failed (reasonOf error) :: done).reverse

/-- The bytes asked for at a time. -/
def portionSize : USize := 8192

/-- Carries a job out on its file or on the standard input. -/
def performJob (job : Job) (verbosity : Verbosity) : IO Outcome := do
  match job.file? with
  | none =>
    let input ← IO.getStdin
    return job.execute verbosity (← readEvents (input.read portionSize) [])
  | some path =>
    match ← (IO.FS.Handle.mk path .read).toBaseIO with
    | .ok handle => return job.execute verbosity (← readEvents (handle.read portionSize) [])
    | .error error => return .ofFailure (.unopened path (.other (reasonOf error)))

/-- Says a report on the standard error. -/
def sayReport : Report → IO Unit
  | .usage error => IO.eprintln s!"error: {error.message}"
  | .failure failure => IO.eprintln s!"Error: {failure.message}"
  | .log events => do
    for event in events do
      IO.eprintln s!"[{event.level.text} {event.target}] {event.message}"

/-- The verbosity that the environment asks for. -/
def environmentVerbosity : IO Verbosity := do
  return ((← IO.getEnv "RUST_LOG").bind Verbosity.ofName?).getD .standard

end Kaleidoscope.CommandLine

open Kaleidoscope.CommandLine in
/-- Runs the program. -/
def main (arguments : List String) : IO UInt32 := do
  let outcome ← match Plan.ofArguments arguments with
    | .done outcome => pure outcome
    | .job job => performJob job (← environmentVerbosity)
  IO.print outcome.output
  sayReport outcome.report
  return UInt32.ofNat outcome.exitCode
