import Kaleidoscope.CommandLine.Arguments
import Kaleidoscope.Number.Integer
import Kaleidoscope.Operators
import Kaleidoscope.Text.Quoted
import Kaleidoscope.Unicode.WhiteSpace

/-!
# Settings from option values

The configuration that the options of a command line describe, or the first thing that is wrong
with them: operators in their order, then the depth limit.
-/

namespace Kaleidoscope.CommandLine

/-- Why a file cannot be opened. -/
inductive OpenFault where
  /-- There is nothing of this name. -/
  | missing
  /-- What the path goes through is no directory. -/
  | notDirectory
  /-- Anything else, in the words of the system. -/
  | other (reason : String)
  deriving DecidableEq

/-- The wording of a fault. -/
def OpenFault.message : OpenFault → String
  | .missing => "No such file or directory (os error 2)"
  | .notDirectory => "Not a directory (os error 20)"
  | .other reason => reason

/-- Why a run that was asked for does not take place. -/
inductive Failure where
  /-- The value of an operator option has no equals sign. -/
  | noPrecedence (value : String)
  /-- What stands before the equals sign is not one character. -/
  | notOneCharacter (left : String)
  /-- What stands behind the equals sign is no precedence. -/
  | badPrecedence (fault : Integer.Fault)
  /-- The operator cannot be registered. -/
  | refusedOperator (error : OperatorError)
  /-- The depth limit is no number. -/
  | badDepth (fault : Integer.Fault)
  /-- The file cannot be opened. -/
  | unopened (path : String) (fault : OpenFault)
  deriving DecidableEq

namespace Failure

/-- What went wrong. -/
def summary : Failure → String
  | noPrecedence value => "operator must look like CHAR=PREC, got " ++ value
  | notOneCharacter left => "operator must be a single character, got " ++ Quoted.encode left
  | badPrecedence _ => "invalid precedence"
  | refusedOperator error => error.message
  | badDepth _ => "invalid --max-depth"
  | unopened path _ => "failed to open " ++ path

/-- What made it go wrong, where that is something else. -/
def cause? : Failure → Option String
  | badPrecedence fault => some fault.message
  | badDepth fault => some fault.message
  | unopened _ fault => some fault.message
  | _ => none

/-- The wording of a failure: the cause stands in a paragraph of its own. -/
def message (failure : Failure) : String :=
  match failure.cause? with
  | none => failure.summary
  | some cause => failure.summary ++ "\n\nCaused by:\n    " ++ cause

end Failure

/-- A text without the white space around it. -/
def trim (text : List Char) : List Char :=
  ((text.dropWhile Unicode.isWhiteSpace).reverse.dropWhile Unicode.isWhiteSpace).reverse

/-- The greatest precedence, one below 2 to the power 31. -/
def greatestPrecedence : Nat := 0x7FFFFFFF

/-- The greatest depth limit that can be asked for, one below 2 to the power 64. -/
def greatestDepth : Nat := 0xFFFFFFFFFFFFFFFF

/-- A precedence, with white space around it. -/
def readPrecedence (text : List Char) : Except Failure Int32 :=
  match Integer.readSigned greatestPrecedence (trim text) with
  | .ok precedence => .ok (Int32.ofInt precedence)
  | .error fault => .error (.badPrecedence fault)

/-- An operator and its precedence, from the two sides of the first equals sign of a value. -/
def readOperator (value : String) : Except Failure (Char × Int32) :=
  match value.toList.dropWhile (· ≠ '=') with
  | [] => .error (.noPrecedence value)
  | _ :: precedence =>
    match value.toList.takeWhile (· ≠ '=') with
    | [c] => (readPrecedence precedence).map fun precedence => (c, precedence)
    | left => .error (.notOneCharacter (String.ofList left))

/-- Registers the operator that a value describes. -/
def registerValue (config : Config) (value : String) : Except Failure Config :=
  match readOperator value with
  | .error failure => .error failure
  | .ok (c, precedence) =>
    match config.register c precedence with
    | .ok (_, config) => .ok config
    | .error error => .error (.refusedOperator error)

/-- Registers the operators of some values in turn. -/
def registerValues (config : Config) : List String → Except Failure Config
  | [] => .ok config
  | value :: rest =>
    match registerValue config value with
    | .ok config => registerValues config rest
    | .error failure => .error failure

/-- Sets the depth limit to a value, if one is given. -/
def limitDepth (config : Config) : Option String → Except Failure Config
  | none => .ok config
  | some value =>
    match Integer.readNatural greatestDepth value.toList with
    | .ok maxDepth => .ok { config with maxDepth }
    | .error fault => .error (.badDepth fault)

/-- The configuration that options describe. -/
def Options.config (options : Options) : Except Failure Config :=
  match registerValues .standard options.operators with
  | .ok config => limitDepth config options.maxDepth?
  | .error failure => .error failure

end Kaleidoscope.CommandLine
