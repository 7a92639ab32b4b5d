/-!
# Integers from text

A decimal integer with an optional sign, in a range of machine integers. The text is read from left
to right, and the first character that is no digit or takes the number out of the range decides the
fault.
-/

namespace Kaleidoscope.Integer

/-- Why a text is not an integer of a range. -/
inductive Fault where
  /-- There is no character. -/
  | empty
  /-- A character that is no digit, or a sign alone. -/
  | invalidDigit
  /-- The number is above the range. -/
  | tooLarge
  /-- The number is below the range. -/
  | tooSmall
  deriving DecidableEq

/-- The wording of a fault. -/
def Fault.message : Fault → String
  | .empty => "cannot parse integer from empty string"
  | .invalidDigit => "invalid digit found in string"
  | .tooLarge => "number too large to fit in target type"
  | .tooSmall => "number too small to fit in target type"

/-- The value of an ASCII digit. -/
def digit? (c : Char) : Option Nat := if c.isDigit then some (c.toNat - '0'.toNat) else none

/-- Reads on from a total that is at most the greatest value. -/
def readUp (greatest total : Nat) : List Char → Except Fault Nat
  | [] => .ok total
  | c :: rest =>
    match digit? c with
    | none => .error .invalidDigit
    | some digit =>
      if greatest < total * 10 + digit then .error .tooLarge
      else readUp greatest (total * 10 + digit) rest

/-- A natural number up to the greatest value; a plus sign may come first. -/
def readNatural (greatest : Nat) (text : List Char) : Except Fault Nat :=
  match text with
  | [] => .error .empty
  | ['+'] => .error .invalidDigit
  | '+' :: digits => readUp greatest 0 digits
  | digits => readUp greatest 0 digits

/-- An integer from `-greatest - 1` to `greatest`; a sign may come first. -/
def readSigned (greatest : Nat) (text : List Char) : Except Fault Int :=
  match text with
  | ['-'] => .error .invalidDigit
  | '-' :: digits =>
    match readUp (greatest + 1) 0 digits with
    | .ok total => .ok (-(total : Int))
    | .error .tooLarge => .error .tooSmall
    | .error fault => .error fault
  | text => (readNatural greatest text).map Int.ofNat

end Kaleidoscope.Integer
