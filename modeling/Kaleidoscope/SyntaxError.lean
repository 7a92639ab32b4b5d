import Kaleidoscope.Token.Basic

/-!
# Syntax errors

Why a form could not be read, and where. The offending token is always the one that the reader
stopped at.
-/

namespace Kaleidoscope

/-- What the grammar asks for at a place. -/
structure Expectation where
  /-- How messages name it. -/
  description : String
  deriving DecidableEq

namespace Expectation

/-- The name that begins a prototype. -/
def functionName : Expectation := ⟨"function name in prototype"⟩

/-- The parenthesis before the parameters. -/
def parametersOpen : Expectation := ⟨"'(' in prototype"⟩

/-- The parenthesis after the parameters. -/
def parametersClose : Expectation := ⟨"')' in prototype"⟩

/-- The parenthesis after a group. -/
def groupClose : Expectation := ⟨"')'"⟩

/-- What may follow an argument. -/
def argumentEnd : Expectation := ⟨"')' or ',' in argument list"⟩

end Expectation

/-- Why a form could not be read. -/
inductive SyntaxError where
  /-- The token cannot begin an expression. -/
  | unexpectedToken (found : Lexeme)
  /-- The token is not what the grammar asks for. -/
  | expected (expectation : Expectation) (found : Lexeme)
  /-- An expression begins inside as many open ones as are allowed. -/
  | nestingTooDeep (limit : Nat) (position : Position)
  deriving BEq

namespace SyntaxError

/-- Where the offending token begins. -/
def position : SyntaxError → Position
  | unexpectedToken found => found.position
  | expected _ found => found.position
  | nestingTooDeep _ position => position

/-- The wording of an error, with its place in front. -/
def message (error : SyntaxError) : String :=
  error.position.text ++ ": " ++
    match error with
    | unexpectedToken found =>
      s!"unexpected {found.token.text} when expecting an expression"
    | expected expectation found =>
      s!"expected {expectation.description}, found {found.token.text}"
    | nestingTooDeep limit _ => s!"expression nested deeper than {limit} levels"

end SyntaxError

end Kaleidoscope
