import Kaleidoscope.Expr.Basic

/-!
# Top-level forms

A program is a sequence of forms: declarations of external functions, definitions, and expressions
to be evaluated at once. Such an expression is the body of a function without a name.
-/

namespace Kaleidoscope

/-- The name and the parameters of a function. -/
structure Prototype where
  /-- The name, which is empty for a function that only carries an expression. -/
  name : String
  /-- The names of the parameters. -/
  parameters : List String
  deriving BEq, DecidableEq

namespace Prototype

/-- Names with a blank between each two. -/
def printNames : List String → List Char
  | [] => []
  | [name] => name.toList
  | name :: others => name.toList ++ ' ' :: printNames others

/-- The name, and the parameters between parentheses. -/
def print (prototype : Prototype) : List Char :=
  prototype.name.toList ++ '(' :: (printNames prototype.parameters ++ [')'])

/-- The text of a prototype as a string. -/
def text (prototype : Prototype) : String := String.ofList prototype.print

end Prototype

/-- A function with its body. -/
structure Function where
  /-- The name and the parameters. -/
  prototype : Prototype
  /-- The expression that gives its value. -/
  body : Expr
  deriving BEq

namespace Function

/-- The function that carries an expression to be evaluated at once. -/
def anonymous (body : Expr) : Function := ⟨⟨"", []⟩, body⟩

/-- Whether a function has no name. -/
def isAnonymous (function : Function) : Bool := function.prototype.name.isEmpty

/-- A definition, or the body alone when there is no name. -/
def print (function : Function) : List Char :=
  if function.isAnonymous then function.body.print
  else "def ".toList ++ function.prototype.print ++ ' ' :: function.body.print

/-- The text of a function as a string. -/
def text (function : Function) : String := String.ofList function.print

end Function

/-- A top-level form. -/
inductive Form where
  /-- The declaration of an external function. -/
  | external (prototype : Prototype)
  /-- A definition, or an expression to be evaluated at once. -/
  | function (content : Function)
  deriving BEq

namespace Form

/-- The kinds of forms that a report tells apart. -/
inductive Kind where
  /-- The declaration of an external function. -/
  | external
  /-- A function with a name. -/
  | definition
  /-- An expression to be evaluated at once. -/
  | expression
  deriving DecidableEq

/-- How reports name a kind. -/
def Kind.text : Kind → String
  | .external => "an extern"
  | .definition => "a function definition"
  | .expression => "a top-level expression"

/-- The kind of a form. -/
def kind : Form → Kind
  | external _ => .external
  | function content => if content.isAnonymous then .expression else .definition

/-- The text of a form. -/
def print : Form → List Char
  | external prototype => "extern ".toList ++ prototype.print
  | function content => content.print

/-- The text of a form as a string. -/
def text (form : Form) : String := String.ofList form.print

end Form

end Kaleidoscope
