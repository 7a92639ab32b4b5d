import Kaleidoscope.Number.Shortest

/-!
# Tokens

The parts that a text is cut into, and where they stand in it. Every character that neither begins
a word nor a numeral nor belongs to a gap is a token by itself, whatever the grammar makes of it.
-/

namespace Kaleidoscope

/-- A place in a text: lines and columns count from one, and columns count characters. -/
structure Position where
  /-- The line. -/
  line : Nat
  /-- The column. -/
  column : Nat
  deriving DecidableEq

namespace Position

/-- The place of the first character of a text. -/
def first : Position := ⟨1, 1⟩

/-- The place that follows a character: a line feed begins a line, and nothing else does. -/
def after (place : Position) (c : Char) : Position :=
  if c = '\n' then ⟨place.line + 1, 1⟩ else ⟨place.line, place.column + 1⟩

/-- The line and the column, joined by a colon. -/
def text (place : Position) : String := s!"{place.line}:{place.column}"

end Position

/-- A part of a text that the grammar sees as one symbol. -/
inductive Token where
  /-- What every text ends with, any number of times. -/
  | endOfInput
  /-- The word that begins a definition. -/
  | definitionWord
  /-- The word that begins the declaration of an external function. -/
  | externWord
  /-- Any other word. -/
  | identifier (name : String)
  /-- A numeral, by its value. -/
  | number (value : Double)
  /-- Any other character: operators, punctuation and what the grammar has no use for. -/
  | character (c : Char)
  deriving BEq

/-- Whether a token is the end of input. -/
def Token.isEnd : Token → Bool
  | .endOfInput => true
  | _ => false

/-- A token is the end if and only if it is the end of input. -/
theorem Token.isEnd_iff (token : Token) : token.isEnd = true ↔ token = .endOfInput := by
  cases token <;> simp only [isEnd, reduceCtorEq]

/-- How messages name a token. -/
def Token.text : Token → String
  | .endOfInput => "end of input"
  | .definitionWord => "'def'"
  | .externWord => "'extern'"
  | .identifier name => s!"identifier '{name}'"
  | .number value => "number " ++ value.text
  | .character c => s!"'{c}'"

/-- A token and the place of its first character. -/
structure Lexeme where
  /-- The token. -/
  token : Token
  /-- Where it begins. -/
  position : Position
  deriving BEq

end Kaleidoscope
