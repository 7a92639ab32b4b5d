import Kaleidoscope.Number.Shortest

/-!
# Expressions

The trees that expressions denote, and their text. The text puts every binary node between
parentheses, so it reads the same under any precedences.
-/

namespace Kaleidoscope

/-- An expression. -/
inductive Expr where
  /-- A number. -/
  | number (value : Double)
  /-- The value of a variable. -/
  | reference (name : String)
  /-- An operator between two operands. -/
  | binary (operator : Char) (left right : Expr)
  /-- A function applied to arguments. -/
  | call (callee : String) (arguments : List Expr)

namespace Expr

instance : Inhabited Expr := ⟨number Double.zero⟩

mutual

/-- Structural equality, which compares numbers as values. -/
def same : Expr → Expr → Bool
  | number value, number value' => value == value'
  | reference name, reference name' => name == name'
  | binary operator left right, binary operator' left' right' =>
    operator == operator' && right.same right' && left.same left'
  | call callee arguments, call callee' arguments' =>
    callee == callee' && sameAll arguments arguments'
  | _, _ => false

/-- Structural equality of argument lists. -/
def sameAll : List Expr → List Expr → Bool
  | [], [] => true
  | argument :: rest, argument' :: rest' => argument.same argument' && sameAll rest rest'
  | _, _ => false

end

instance : BEq Expr := ⟨same⟩

/-- The text of a number in an expression. Infinity, of either sign, is a numeral so large that it
is read as infinity. -/
def printNumber (value : Double) : List Char :=
  if value.isInfinite then '1' :: List.replicate 309 '0' else value.print

mutual

/-- The text of an expression, put before a given text. -/
def printBefore : Expr → List Char → List Char
  | number value, rest => printNumber value ++ rest
  | reference name, rest => name.toList ++ rest
  | binary operator left right, rest =>
    '(' :: left.printBefore
      (' ' :: operator :: ' ' :: right.printBefore (')' :: rest))
  | call callee arguments, rest =>
    callee.toList ++ '(' :: printArguments arguments (')' :: rest)

/-- Arguments separated by commas and blanks, put before a given text. -/
def printArguments : List Expr → List Char → List Char
  | [], rest => rest
  | argument :: others, rest => argument.printBefore (printFurther others rest)

/-- Arguments after the first, each led in by a comma and a blank, put before a given text. -/
def printFurther : List Expr → List Char → List Char
  | [], rest => rest
  | argument :: others, rest =>
    ',' :: ' ' :: argument.printBefore (printFurther others rest)

end

/-- The text of an expression. -/
def print (expr : Expr) : List Char := expr.printBefore []

/-- The text of an expression as a string. -/
def text (expr : Expr) : String := String.ofList expr.print

end Expr

end Kaleidoscope
