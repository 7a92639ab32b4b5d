import Kaleidoscope.Number.Double

/-!
# Shortest decimal text of a number

Every decimal strictly between the midpoints to the two neighbours of a number rounds to it, and a
midpoint does when the rank is even. The text of a number is taken from the coarsest decimal grid
that has a point in that interval; of two points the nearer is chosen, and of two equally near the
larger. All lengths are natural numbers of units of 10 to the power -1075: in these units numbers,
midpoints and grid points are whole.
-/

namespace Kaleidoscope.Double

/-- The places after the decimal point that one unit occupies. -/
def unitPlaces : Nat := 1075

/-- The magnitude of a rank in decimal units. -/
def units (rank : Nat) : Nat := magnitude rank * 2 * Nat.pow 5 unitPlaces

/-- The midpoint between a rank and the next one in decimal units. -/
def midpoint (rank : Nat) : Nat := (magnitude rank + magnitude (rank + 1)) * Nat.pow 5 unitPlaces

/-- Whether a decimal rounds to the number of a positive rank. -/
def roundsTo (rank decimal : Nat) : Bool :=
  if rank % 2 = 0 then
    decide (midpoint (rank - 1) ≤ decimal) && decide (decimal ≤ midpoint rank)
  else
    decide (midpoint (rank - 1) < decimal) && decide (decimal < midpoint rank)

/-- The point of a grid that rounds to the number, if there is one: it is next to the number, below
or above. -/
def gridPoint? (rank step : Nat) : Option Nat :=
  let below := units rank / step * step
  let above := below + step
  if roundsTo rank below then
    if roundsTo rank above && decide (above - units rank ≤ units rank - below) then some above
    else some below
  else if roundsTo rank above then some above
  else none

/-- The decimal from the coarsest grid among the powers of ten up to an exponent. -/
def coarsest (rank : Nat) : Nat → Nat
  | 0 => units rank
  | exponent + 1 => (gridPoint? rank (Nat.pow 10 (exponent + 1))).getD (coarsest rank exponent)

/-- An exponent of ten that no grid with a positive point up to a length exceeds, because 28 factors
of ten have more than 93 bits. -/
def exponentBound (length : Nat) : Nat := length.log2 * 28 / 93 + 1

/-- The shortest decimal that rounds to the number of a rank, in decimal units. -/
def shortest (rank : Nat) : Nat :=
  if rank = 0 then 0 else coarsest rank (exponentBound (midpoint rank))

/-- The digits of a fraction, given in units of its last place, without the zeros at the end. -/
def fractionDigits : Nat → Nat → List Char
  | 0, _ => []
  | places + 1, fraction =>
    if fraction = 0 then []
    else
      Nat.digitChar (fraction / Nat.pow 10 places) ::
        fractionDigits places (fraction % Nat.pow 10 places)

/-- A length in decimal units, written with a decimal point where there is a fraction. -/
def positional (length : Nat) : List Char :=
  let one := Nat.pow 10 unitPlaces
  let fraction := fractionDigits unitPlaces (length % one)
  Nat.toDigits 10 (length / one) ++ if fraction.isEmpty then [] else '.' :: fraction

/-- The text of a number: never an exponent, and a sign for negative zero too. -/
def print (value : Double) : List Char :=
  if value.isNaN then ['N', 'a', 'N']
  else
    (if value.negative then ['-'] else []) ++
      if value.isInfinite then ['i', 'n', 'f'] else positional (shortest value.rank.val)

/-- The text of a number as a string. -/
def text (value : Double) : String := String.ofList value.print

end Kaleidoscope.Double
