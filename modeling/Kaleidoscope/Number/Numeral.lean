import Kaleidoscope.Number.Double

/-!
# Numerals

A numeral is a run of ASCII digits and dots. Its value is that of the longest beginning that is a
decimal: digits, then possibly a dot and more digits, or a dot and digits. What follows the second
dot is without effect, and a run that has no digit before the second dot is zero.
-/

namespace Kaleidoscope.Numeral

/-- Whether a numeral may contain the character, and so begin with it. -/
def isPart (c : Char) : Bool := c.isDigit || c = '.'

/-- The natural number of a sequence of digits. -/
def natural (digits : List Char) : Nat :=
  digits.foldl (fun total digit => total * 10 + (digit.toNat - '0'.toNat)) 0

/-- The digits before the first dot. -/
def whole (run : List Char) : List Char := run.takeWhile Char.isDigit

/-- The digits after the first dot, up to the next character that is no digit. -/
def fraction (run : List Char) : List Char :=
  match run.dropWhile Char.isDigit with
  | '.' :: rest => rest.takeWhile Char.isDigit
  | _ => []

/-- The value of a numeral, rounded once from the exact decimal. -/
def value (run : List Char) : Double :=
  Double.nearest (natural (whole run ++ fraction run)) (Nat.pow 10 (fraction run).length)

end Kaleidoscope.Numeral
