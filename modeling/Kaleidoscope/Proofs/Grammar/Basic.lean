import Kaleidoscope.Form.Basic
import Kaleidoscope.Proofs.Chain

/-!
# The grammar

What may be written, as trees that keep every token: operands, expressions that are operands with
operators between them, argument lists, and forms. A tree of the grammar says which tokens it is
written with, how deep its expressions nest, and what it denotes. A sequence of tokens belongs to
the grammar when there is such a tree.
-/

namespace Kaleidoscope.Grammar

mutual

/-- An operand as it is written. -/
inductive Primary where
  /-- A numeral. -/
  | number (value : Double)
  /-- A bare name. -/
  | name (word : String)
  /-- A name, and arguments between parentheses. -/
  | call (callee : String) (arguments : Arguments)
  /-- An expression between parentheses. -/
  | group (inner : Phrase)

/-- An expression as it is written. -/
inductive Phrase where
  /-- An operand, and what follows it. -/
  | chain (first : Primary) (tail : Tail)

/-- What follows an operand in an expression. -/
inductive Tail where
  /-- Nothing. -/
  | done
  /-- An operator, an operand, and what follows that one. -/
  | more (operator : Char) (operand : Primary) (rest : Tail)

/-- Arguments as they are written. -/
inductive Arguments where
  /-- No argument. -/
  | none
  /-- An argument, and those behind it. -/
  | more (first : Phrase) (rest : Arguments)

end

mutual

/-- The tokens of an operand. -/
def Primary.tokens : Primary → List Token
  | .number value => [.number value]
  | .name word => [.identifier word]
  | .call callee arguments =>
    .identifier callee :: .character '(' :: (arguments.tokens ++ [.character ')'])
  | .group inner => .character '(' :: (inner.tokens ++ [.character ')'])

/-- The tokens of an expression. -/
def Phrase.tokens : Phrase → List Token
  | .chain first tail => first.tokens ++ tail.tokens

/-- The tokens behind an operand. -/
def Tail.tokens : Tail → List Token
  | .done => []
  | .more operator operand rest => .character operator :: (operand.tokens ++ rest.tokens)

/-- The tokens of arguments. -/
def Arguments.tokens : Arguments → List Token
  | .none => []
  | .more first rest => first.tokens ++ rest.furtherTokens

/-- The tokens of arguments that follow another one: each is led in by a comma. -/
def Arguments.furtherTokens : Arguments → List Token
  | .none => []
  | .more first rest => .character ',' :: (first.tokens ++ rest.furtherTokens)

end

mutual

/-- The deepest nesting of the expressions inside an operand. -/
def Primary.nesting : Primary → Nat
  | .number _ => 0
  | .name _ => 0
  | .call _ arguments => arguments.nesting
  | .group inner => inner.nesting

/-- The nesting of an expression: one more than the deepest nesting of those inside it. -/
def Phrase.nesting : Phrase → Nat
  | .chain first tail => 1 + max first.nesting tail.nesting

/-- The deepest nesting of the expressions behind an operand. -/
def Tail.nesting : Tail → Nat
  | .done => 0
  | .more _ operand rest => max operand.nesting rest.nesting

/-- The deepest nesting of arguments. -/
def Arguments.nesting : Arguments → Nat
  | .none => 0
  | .more first rest => max first.nesting rest.nesting

end

mutual

/-- What an operand denotes. -/
def Primary.tree (table : OperatorTable) : Primary → Expr
  | .number value => .number value
  | .name word => .reference word
  | .call callee arguments => .call callee (arguments.trees table)
  | .group inner => inner.tree table

/-- What an expression denotes: its operands are grouped by the precedences of the table. -/
def Phrase.tree (table : OperatorTable) : Phrase → Expr
  | .chain first tail => Link.grouping (first.tree table) (tail.links table)

/-- The links of a chain. -/
def Tail.links (table : OperatorTable) : Tail → List Link
  | .done => []
  | .more operator operand rest =>
    ⟨operator, (table.precedence? operator).getD 0, operand.tree table⟩ :: rest.links table

/-- What arguments denote, in their order. -/
def Arguments.trees (table : OperatorTable) : Arguments → List Expr
  | .none => []
  | .more first rest => first.tree table :: rest.trees table

end

mutual

/-- Whether the operators inside an operand are in a table. -/
def Primary.Valid (table : OperatorTable) : Primary → Prop
  | .number _ => True
  | .name _ => True
  | .call _ arguments => arguments.Valid table
  | .group inner => inner.Valid table

/-- Whether the operators of an expression are in a table. -/
def Phrase.Valid (table : OperatorTable) : Phrase → Prop
  | .chain first tail => first.Valid table ∧ tail.Valid table

/-- Whether the operators behind an operand are in a table. -/
def Tail.Valid (table : OperatorTable) : Tail → Prop
  | .done => True
  | .more operator operand rest =>
    (∃ precedence, table.precedence? operator = some precedence) ∧ operand.Valid table ∧
      rest.Valid table

/-- Whether the operators of arguments are in a table. -/
def Arguments.Valid (table : OperatorTable) : Arguments → Prop
  | .none => True
  | .more first rest => first.Valid table ∧ rest.Valid table

end

/-- The precedences of a chain whose operators are in the table are not negative. -/
theorem Tail.links_nonneg {table : OperatorTable} {tail : Tail} (h : tail.Valid table) :
    ∀ link ∈ tail.links table, 0 ≤ link.precedence := by
  match tail with
  | .done => simp [links]
  | .more operator operand rest =>
    obtain ⟨⟨precedence, hprecedence⟩, _, hrest⟩ := h
    intro link hmem
    rcases List.mem_cons.1 hmem with rfl | hmem
    · rw [hprecedence]
      exact Int32.le_of_lt (OperatorTable.precedence?_pos hprecedence)
    · exact links_nonneg hrest link hmem

/-- Whether an operand is a bare name. -/
def Primary.bare : Primary → Bool
  | .name _ => true
  | _ => false

/-- Whether the last operand of a chain is a bare name. -/
def Tail.bare (first : Bool) : Tail → Bool
  | .done => first
  | .more _ operand rest => rest.bare operand.bare

/-- Whether the last operand of an expression is a bare name. -/
def Phrase.bare : Phrase → Bool
  | .chain first tail => tail.bare first.bare

/-- A form as it is written. -/
inductive Item where
  /-- The declaration of an external function. -/
  | external (prototype : Prototype)
  /-- A definition. -/
  | definition (prototype : Prototype) (body : Phrase)
  /-- An expression to be evaluated at once. -/
  | expression (body : Phrase)

/-- The tokens of a prototype. -/
def prototypeTokens (prototype : Prototype) : List Token :=
  .identifier prototype.name :: .character '(' ::
    (prototype.parameters.map Token.identifier ++ [.character ')'])

namespace Item

/-- The tokens of a form. -/
def tokens : Item → List Token
  | external prototype => .externWord :: prototypeTokens prototype
  | definition prototype body => .definitionWord :: (prototypeTokens prototype ++ body.tokens)
  | expression body => body.tokens

/-- What a form denotes. -/
def form (table : OperatorTable) : Item → Form
  | external prototype => .external prototype
  | definition prototype body => .function ⟨prototype, body.tree table⟩
  | expression body => .function (.anonymous (body.tree table))

/-- The nesting of the expression of a form, if it has one. -/
def nesting : Item → Nat
  | external _ => 0
  | definition _ body => body.nesting
  | expression body => body.nesting

/-- Whether the operators of a form are in a table. -/
def Valid (table : OperatorTable) : Item → Prop
  | external _ => True
  | definition _ body => body.Valid table
  | expression body => body.Valid table

/-- Whether a form has operators of a configuration only, and nests within its limit. -/
structure Admitted (config : Config) (item : Item) : Prop where
  /-- The operators are in the table. -/
  valid : item.Valid config.operators
  /-- No expression begins inside too many others. -/
  nesting : item.nesting ≤ config.maxDepth

/-- Whether a form ends with a bare name. -/
def bare : Item → Bool
  | external _ => false
  | definition _ body => body.bare
  | expression body => body.bare

end Item

end Kaleidoscope.Grammar
