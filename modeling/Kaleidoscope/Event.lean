import Kaleidoscope.Form.Basic
import Kaleidoscope.SyntaxError

/-!
# Events

What a session reports while it works, each with a level of importance, the part of the program
that it comes from, and a wording.
-/

namespace Kaleidoscope

/-- How important a report is. -/
inductive Level where
  /-- Something could not be done. -/
  | error
  /-- Something was skipped. -/
  | warn
  /-- The progress of the work. -/
  | info
  /-- Details of the work. -/
  | debug
  /-- Every single step. -/
  | trace
  deriving DecidableEq

namespace Level

/-- The place among the levels, the most important first. -/
def rank : Level → Nat
  | error => 1
  | warn => 2
  | info => 3
  | debug => 4
  | trace => 5

/-- How a log names a level. -/
def text : Level → String
  | error => "ERROR"
  | warn => "WARN"
  | info => "INFO"
  | debug => "DEBUG"
  | trace => "TRACE"

end Level

/-- Something worth a report. -/
inductive Event where
  /-- A token has been cut from the text. -/
  | lexed (lexeme : Lexeme)
  /-- The input could not be read, for the given reason. -/
  | inputFailed (reason : String)
  /-- A form has been read. -/
  | parsed (kind : Form.Kind)
  /-- A form could not be read. -/
  | rejected (error : SyntaxError)
  /-- All input has been dealt with. -/
  | finished (succeeded failed : Nat)

namespace Event

/-- The importance of an event. -/
def level : Event → Level
  | lexed _ => .trace
  | inputFailed _ => .error
  | parsed _ => .info
  | rejected _ => .warn
  | finished .. => .info

/-- The part of the program that reports an event. -/
def target : Event → String
  | lexed _ => "kaleidoscope::lexer"
  | inputFailed _ => "kaleidoscope::source"
  | parsed _ => "kaleidoscope::driver"
  | rejected _ => "kaleidoscope::driver"
  | finished .. => "kaleidoscope"

/-- The wording of an event. -/
def message : Event → String
  | lexed lexeme => s!"lexed {lexeme.token.text} at {lexeme.position.text}"
  | inputFailed reason => "failed to read input: " ++ reason
  | parsed kind => "parsed " ++ kind.text
  | rejected error => error.message
  | finished succeeded failed => s!"{succeeded} forms parsed, {failed} failed"

end Event

/-- The least important level that a log keeps, or none when it keeps nothing. -/
structure Verbosity where
  /-- The level. -/
  least? : Option Level

namespace Verbosity

/-- The verbosities by name. -/
def ofName? : String → Option Verbosity
  | "off" => some ⟨none⟩
  | "error" => some ⟨some .error⟩
  | "warn" => some ⟨some .warn⟩
  | "info" => some ⟨some .info⟩
  | "debug" => some ⟨some .debug⟩
  | "trace" => some ⟨some .trace⟩
  | _ => none

/-- The verbosity where none is given. -/
def standard : Verbosity := ⟨some .info⟩

/-- Whether a log keeps an event. -/
def keeps (verbosity : Verbosity) (event : Event) : Bool :=
  match verbosity.least? with
  | none => false
  | some least => decide (event.level.rank ≤ least.rank)

end Verbosity

end Kaleidoscope
