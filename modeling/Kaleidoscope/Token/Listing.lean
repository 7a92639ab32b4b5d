import Kaleidoscope.Token.Cursor

/-!
# The tokens of a text

All tokens of a stream up to the end of input, with their places.
-/

namespace Kaleidoscope

namespace Cursor

variable {σ : Type} [CharStream σ]

/-- The tokens from the cursor to the end of input, which is not among them; those before are given
in reverse. -/
def lexemes (done : List Lexeme) (cursor : Cursor σ) : List Lexeme :=
  let scan := cursor.scan
  if _h : scan.lexeme.token.isEnd then done.reverse
  else scan.cursor.lexemes (scan.lexeme :: done)
termination_by cursor.size
decreasing_by exact size_scan_lt fun hend => _h ((Token.isEnd_iff _).2 hend)

end Cursor

/-- The tokens of a text with their places. -/
def Lexeme.ofString (text : String) : List Lexeme :=
  (Cursor.start (Text.ofString text)).lexemes []

/-- The tokens of a text. -/
def Token.ofString (text : String) : List Token := (Lexeme.ofString text).map Lexeme.token

end Kaleidoscope
