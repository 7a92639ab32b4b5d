import Kaleidoscope.Expr.Chain
import Kaleidoscope.Operators
import Kaleidoscope.Token.Feed

/-!
# Reading expressions

The machine that reads an expression. It keeps the operands and operators of the expression that is
being read, and a stack of what surrounds it: groups and calls that have been opened and not yet
closed. Expressions inside one another are counted, and one that begins where the limit is reached
is an error, whatever its first token is.
-/

namespace Kaleidoscope

/-- The operator that a token is, with its precedence. -/
def Config.operator? (config : Config) : Token → Option (Char × Int32)
  | .character c => (config.operators.precedence? c).map fun precedence => (c, precedence)
  | _ => none

namespace ExprReader

/-- An operand and the operator behind it, whose right operand is yet to be read. -/
structure Pending where
  /-- The operand. -/
  operand : Expr
  /-- The operator. -/
  operator : Char
  /-- How tightly the operator binds. -/
  precedence : Int32

/-- Why an expression is being read inside another one. -/
inductive Frame where
  /-- It stands between parentheses, behind the operands that are pending outside. -/
  | group (before : List Pending)
  /-- It is an argument, behind the operands that are pending outside and the arguments that have
  been read, both given in reverse. -/
  | argument (before : List Pending) (callee : String) (done : List Expr)

/-- What the innermost expression waits for. Operands that are pending are given in reverse. -/
inductive Phase where
  /-- It has not begun. -/
  | start
  /-- It waits for an operand. -/
  | operand (before : List Pending)
  /-- It has just come to a name, of a variable or of a function. -/
  | name (before : List Pending) (name : String)
  /-- It has just come to the parenthesis behind the name of a function. -/
  | opened (before : List Pending) (callee : String)
  /-- It has just come to the end of an operand. -/
  | operator (before : List Pending) (last : Expr)

/-- The state of the machine. -/
structure State where
  /-- What the innermost expression waits for. -/
  phase : Phase
  /-- What surrounds it, the innermost first. -/
  stack : List Frame
  /-- The number of expressions that have begun and not ended. -/
  depth : Nat

/-- What is read in the end. -/
abbrev Result := Except SyntaxError Expr

/-- Where a reading begins. -/
def State.initial : State := ⟨.start, [], 0⟩

/-- The tree of a finished expression from its last operand, the operands and operators before it
in reverse, and the links behind it. -/
def complete (before : List Pending) (last : Expr) (links : List Link) : Expr :=
  match before with
  | [] => Expr.ofChain last links
  | pending :: before =>
    complete before pending.operand (⟨pending.operator, pending.precedence, last⟩ :: links)

/-- The move where an operand is due. -/
def atOperand (before : List Pending) (stack : List Frame) (depth : Nat) (lexeme : Lexeme) :
    Move State Result :=
  match lexeme.token with
  | .identifier name => .shift ⟨.name before name, stack, depth⟩
  | .number value => .shift ⟨.operator before (.number value), stack, depth⟩
  | .character '(' => .shift ⟨.start, .group before :: stack, depth⟩
  | _ => .stop (.error (.unexpectedToken lexeme))

/-- The move where an expression begins. -/
def atStart (config : Config) (stack : List Frame) (depth : Nat) (lexeme : Lexeme) :
    Move State Result :=
  if config.maxDepth ≤ depth then
    .stop (.error (.nestingTooDeep config.maxDepth lexeme.position))
  else atOperand [] stack (depth + 1) lexeme

/-- The move behind a finished expression. -/
def atEnd (expr : Expr) (stack : List Frame) (depth : Nat) (lexeme : Lexeme) :
    Move State Result :=
  match stack with
  | [] => .stop (.ok expr)
  | .group before :: stack =>
    match lexeme.token with
    | .character ')' => .shift ⟨.operator before expr, stack, depth⟩
    | _ => .stop (.error (.expected .groupClose lexeme))
  | .argument before callee done :: stack =>
    match lexeme.token with
    | .character ')' =>
      .shift ⟨.operator before (.call callee (expr :: done).reverse), stack, depth⟩
    | .character ',' =>
      .shift ⟨.start, .argument before callee (expr :: done) :: stack, depth⟩
    | _ => .stop (.error (.expected .argumentEnd lexeme))

/-- The move behind an operand. An operator goes on with the expression, whatever else the token
could mean; any other token ends it. -/
def atOperator (config : Config) (before : List Pending) (last : Expr) (stack : List Frame)
    (depth : Nat) (lexeme : Lexeme) : Move State Result :=
  match config.operator? lexeme.token with
  | some (operator, precedence) =>
    .shift ⟨.operand (⟨last, operator, precedence⟩ :: before), stack, depth⟩
  | none => atEnd (complete before last []) stack (depth - 1) lexeme

/-- The move behind a name: a parenthesis makes it the name of a function. -/
def atName (config : Config) (before : List Pending) (name : String) (stack : List Frame)
    (depth : Nat) (lexeme : Lexeme) : Move State Result :=
  match lexeme.token with
  | .character '(' => .shift ⟨.opened before name, stack, depth⟩
  | _ => atOperator config before (.reference name) stack depth lexeme

/-- The move behind the parenthesis that opens a call. -/
def atOpened (config : Config) (before : List Pending) (callee : String) (stack : List Frame)
    (depth : Nat) (lexeme : Lexeme) : Move State Result :=
  match lexeme.token with
  | .character ')' => .shift ⟨.operator before (.call callee []), stack, depth⟩
  | _ => atStart config (.argument before callee [] :: stack) depth lexeme

/-- The move of the machine. -/
def move (config : Config) (state : State) (lexeme : Lexeme) : Move State Result :=
  match state.phase with
  | .start => atStart config state.stack state.depth lexeme
  | .operand before => atOperand before state.stack state.depth lexeme
  | .name before name => atName config before name state.stack state.depth lexeme
  | .opened before callee => atOpened config before callee state.stack state.depth lexeme
  | .operator before last => atOperator config before last state.stack state.depth lexeme

/-- No operand begins with the end of input. -/
theorem atOperand_end {before : List Pending} {stack : List Frame} {depth : Nat}
    {lexeme : Lexeme} {next : State} (h : atOperand before stack depth lexeme = .shift next) :
    lexeme.token ≠ .endOfInput := by
  intro hend
  rw [atOperand, hend] at h
  exact nomatch h

/-- No expression begins with the end of input. -/
theorem atStart_end {config : Config} {stack : List Frame} {depth : Nat} {lexeme : Lexeme}
    {next : State} (h : atStart config stack depth lexeme = .shift next) :
    lexeme.token ≠ .endOfInput := by
  rw [atStart] at h
  split at h
  · exact nomatch h
  · exact atOperand_end h

/-- Nothing around an expression is closed by the end of input. -/
theorem atEnd_end {expr : Expr} {stack : List Frame} {depth : Nat} {lexeme : Lexeme}
    {next : State} (h : atEnd expr stack depth lexeme = .shift next) :
    lexeme.token ≠ .endOfInput := by
  intro hend
  unfold atEnd at h
  rw [hend] at h
  split at h
  · exact nomatch h
  · exact nomatch h
  · exact nomatch h

/-- The end of input is no operator. -/
theorem atOperator_end {config : Config} {before : List Pending} {last : Expr}
    {stack : List Frame} {depth : Nat} {lexeme : Lexeme} {next : State}
    (h : atOperator config before last stack depth lexeme = .shift next) :
    lexeme.token ≠ .endOfInput := by
  intro hend
  rw [atOperator, hend] at h
  exact atEnd_end h hend

/-- The end of input is never used up by the reading of an expression. -/
theorem move_end {config : Config} {state next : State} {lexeme : Lexeme}
    (h : move config state lexeme = .shift next) : lexeme.token ≠ .endOfInput := by
  rw [move] at h
  split at h
  · exact atStart_end h
  · exact atOperand_end h
  · intro hend
    rw [atName, hend] at h
    exact atOperator_end h hend
  · intro hend
    rw [atOpened, hend] at h
    exact atStart_end h hend
  · exact atOperator_end h

/-- The machine that reads an expression. -/
def machine (config : Config) : Machine State Result := ⟨move config, move_end⟩

/-- An operand is never read from nothing: its first move uses a token up or is an error. -/
theorem atOperand_cases (before : List Pending) (stack : List Frame) (depth : Nat)
    (lexeme : Lexeme) :
    (∃ next, atOperand before stack depth lexeme = .shift next) ∨
      ∃ error, atOperand before stack depth lexeme = .stop (.error error) := by
  unfold atOperand
  split
  · exact .inl ⟨_, rfl⟩
  · exact .inl ⟨_, rfl⟩
  · exact .inl ⟨_, rfl⟩
  · exact .inr ⟨_, rfl⟩

/-- An expression is never read from nothing: its first move uses a token up or is an error. -/
theorem move_initial_cases (config : Config) (lexeme : Lexeme) :
    (∃ next, move config .initial lexeme = .shift next) ∨
      ∃ error, move config .initial lexeme = .stop (.error error) := by
  have hmove : move config .initial lexeme = atStart config [] 0 lexeme := rfl
  rw [hmove, atStart]
  by_cases h : config.maxDepth ≤ 0
  · rw [if_pos h]
    exact .inr ⟨_, rfl⟩
  · rw [if_neg h]
    exact atOperand_cases [] [] (0 + 1) lexeme

end ExprReader

end Kaleidoscope
