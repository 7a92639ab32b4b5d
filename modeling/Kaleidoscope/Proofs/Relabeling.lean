import Kaleidoscope.Proofs.Division
import Kaleidoscope.Proofs.FormMachine

/-!
# Tokens in other places

The readers look at places only to report them, and the end of input is to them a token that goes on
with nothing, as a semicolon is. So when tokens move, and when a semicolon takes the place of the
end of input, the readers do what they did before, and an error names the moved token. The main
statements say so of every run of a machine, and of the reading of a form.
-/

namespace Kaleidoscope

/-- A change of tokens: where they move, and what takes the place of the end of input. -/
structure Relabeling where
  /-- Where a place moves. -/
  position : Position → Position
  /-- The token in the place of the end of input. -/
  ending : Token

namespace Relabeling

/-- The token in the place of a token. -/
def token (φ : Relabeling) : Token → Token
  | .endOfInput => φ.ending
  | token => token

/-- The token, with its place, in the place of a token. -/
def lexeme (φ : Relabeling) (lexeme : Lexeme) : Lexeme :=
  ⟨φ.token lexeme.token, φ.position lexeme.position⟩

/-- The error in the place of an error. -/
def error (φ : Relabeling) : SyntaxError → SyntaxError
  | .unexpectedToken found => .unexpectedToken (φ.lexeme found)
  | .expected expectation found => .expected expectation (φ.lexeme found)
  | .nestingTooDeep limit position => .nestingTooDeep limit (φ.position position)

/-- What is read, or the error in the place of an error. -/
def result (φ : Relabeling) {α : Type} : Except SyntaxError α → Except SyntaxError α :=
  Except.mapError φ.error

/-- The relabeling that changes nothing. -/
def identity : Relabeling := ⟨id, .endOfInput⟩

/-- Whether the end of input stays, or a semicolon that is no operator takes its place. -/
def Admits (φ : Relabeling) (config : Config) : Prop :=
  φ.ending = .endOfInput ∨
    φ.ending = .character ';' ∧ config.operators.precedence? ';' = none

variable {φ : Relabeling} {config : Config}

/-- A token other than the end of input stays what it is. -/
theorem token_of_ne {token : Token} (h : token ≠ .endOfInput) : φ.token token = token := by
  cases token with
  | endOfInput => exact absurd rfl h
  | _ => rfl

/-- The relabeling that changes nothing changes no token. -/
theorem identity_lexeme : identity.lexeme = id := by
  funext lexeme
  obtain ⟨token, position⟩ := lexeme
  cases token <;> rfl

/-- The relabeling that changes nothing changes nothing that is read. -/
theorem identity_result (α : Type) : @result identity α = id := by
  funext result
  cases result with
  | ok value => rfl
  | error error =>
    cases error with
    | unexpectedToken found => exact congrArg _ (congrArg _ (congrFun identity_lexeme found))
    | expected expectation found =>
      exact congrArg _ (congrArg _ (congrFun identity_lexeme found))
    | nestingTooDeep limit position => rfl

/-- A token stays what it is, or a semicolon takes the place of the end of input. -/
theorem Admits.token_cases (h : φ.Admits config) (lexeme : Lexeme) :
    (φ.lexeme lexeme).token = lexeme.token ∨
      lexeme.token = .endOfInput ∧ (φ.lexeme lexeme).token = .character ';' := by
  by_cases hend : lexeme.token = .endOfInput
  · have htoken : (φ.lexeme lexeme).token = φ.ending := by
      simp only [Relabeling.lexeme, hend, token]
    rw [htoken, hend]
    exact h.imp id fun hseparator => ⟨rfl, hseparator.1⟩
  · exact .inl (token_of_ne hend)

/-- What takes the place of the end of input is no operator. -/
theorem Admits.operator?_eq (h : φ.Admits config) (lexeme : Lexeme) :
    config.operator? (φ.lexeme lexeme).token = config.operator? lexeme.token := by
  rcases h.token_cases lexeme with htoken | ⟨hend, hseparator⟩
  · rw [htoken]
  · rcases h with hending | ⟨_, hprecedence⟩
    · simp only [Relabeling.lexeme, hend, token, hending]
    · rw [hend, hseparator]
      simp only [Config.operator?, hprecedence, Option.map_none]

end Relabeling

/-- The move in the place of a move. -/
def Move.relabel {S α : Type} (φ : Relabeling) :
    Move S (Except SyntaxError α) → Move S (Except SyntaxError α)
  | .shift next => .shift next
  | .stop result => .stop (φ.result result)

/-- Whether a machine does on a token in the place of another one what it does on that one. -/
def Machine.Respects {S α : Type} (machine : Machine S (Except SyntaxError α)) (φ : Relabeling) :
    Prop :=
  ∀ state lexeme, machine.move state (φ.lexeme lexeme) = (machine.move state lexeme).relabel φ

namespace ExprReader

variable {φ : Relabeling} {config : Config} {before : List Pending} {stack : List Frame}
  {depth : Nat} {lexeme : Lexeme}

/-- Where an operand is due a change of the token changes the error alone. -/
theorem atOperand_relabel (h : φ.Admits config) :
    atOperand before stack depth (φ.lexeme lexeme) =
      (atOperand before stack depth lexeme).relabel φ := by
  unfold atOperand
  rcases h.token_cases lexeme with htoken | ⟨hend, hseparator⟩
  · rw [htoken]
    split <;> rfl
  · rw [hend, hseparator]
    rfl

/-- Where an expression begins a change of the token changes the error alone. -/
theorem atStart_relabel (h : φ.Admits config) :
    atStart config stack depth (φ.lexeme lexeme) =
      (atStart config stack depth lexeme).relabel φ := by
  unfold atStart
  split
  · rfl
  · exact atOperand_relabel h

/-- Behind a finished expression a change of the token changes the error alone. -/
theorem atEnd_relabel (h : φ.Admits config) (expr : Expr) :
    atEnd expr stack depth (φ.lexeme lexeme) = (atEnd expr stack depth lexeme).relabel φ := by
  cases stack with
  | nil => rfl
  | cons frame stack =>
    cases frame with
    | group before =>
      simp only [atEnd]
      rcases h.token_cases lexeme with htoken | ⟨hend, hseparator⟩
      · rw [htoken]
        split <;> rfl
      · rw [hend, hseparator]
        rfl
    | argument before callee done =>
      simp only [atEnd]
      rcases h.token_cases lexeme with htoken | ⟨hend, hseparator⟩
      · rw [htoken]
        split <;> rfl
      · rw [hend, hseparator]
        rfl

/-- Behind an operand a change of the token changes the error alone. -/
theorem atOperator_relabel (h : φ.Admits config) (last : Expr) :
    atOperator config before last stack depth (φ.lexeme lexeme) =
      (atOperator config before last stack depth lexeme).relabel φ := by
  unfold atOperator
  rw [h.operator?_eq lexeme]
  split
  · rfl
  · exact atEnd_relabel h _

/-- Behind a name a change of the token changes the error alone. -/
theorem atName_relabel (h : φ.Admits config) (name : String) :
    atName config before name stack depth (φ.lexeme lexeme) =
      (atName config before name stack depth lexeme).relabel φ := by
  unfold atName
  rcases h.token_cases lexeme with htoken | ⟨hend, hseparator⟩
  · rw [htoken]
    split
    · rfl
    · exact atOperator_relabel h _
  · rw [hend, hseparator]
    exact atOperator_relabel h _

/-- Behind the parenthesis of a call a change of the token changes the error alone. -/
theorem atOpened_relabel (h : φ.Admits config) (callee : String) :
    atOpened config before callee stack depth (φ.lexeme lexeme) =
      (atOpened config before callee stack depth lexeme).relabel φ := by
  unfold atOpened
  rcases h.token_cases lexeme with htoken | ⟨hend, hseparator⟩
  · rw [htoken]
    split
    · rfl
    · exact atStart_relabel h
  · rw [hend, hseparator]
    exact atStart_relabel h

/-- In every state of the reader of expressions a change of the token changes the error alone. -/
theorem respects (h : φ.Admits config) : (machine config).Respects φ := by
  intro state lexeme
  obtain ⟨phase, stack, depth⟩ := state
  cases phase with
  | start => exact atStart_relabel h
  | operand before => exact atOperand_relabel h
  | name before name => exact atName_relabel h name
  | opened before callee => exact atOpened_relabel h callee
  | operator before last => exact atOperator_relabel h last

end ExprReader

/-- In every state of the reader of prototypes a change of the token changes the error alone. -/
theorem PrototypeReader.respects {φ : Relabeling} {config : Config} (h : φ.Admits config) :
    machine.Respects φ := by
  intro state lexeme
  change move state (φ.lexeme lexeme) = (move state lexeme).relabel φ
  cases state with
  | closed prototype => rfl
  | _ =>
    simp only [move]
    rcases h.token_cases lexeme with htoken | ⟨hend, hseparator⟩
    · rw [htoken]
      split <;> rfl
    · rw [hend, hseparator]
      rfl

namespace FormReader

variable {φ : Relabeling} {config : Config}

/-- Inside the body of a form a change of the token changes the error alone. -/
theorem atBody_relabel (h : φ.Admits config) (prototype? : Option Prototype)
    (state : ExprReader.State) (lexeme : Lexeme) :
    atBody config prototype? state (φ.lexeme lexeme) =
      (atBody config prototype? state lexeme).relabel φ := by
  have hmove : ExprReader.move config state (φ.lexeme lexeme) =
      (ExprReader.move config state lexeme).relabel φ := ExprReader.respects h state lexeme
  rw [atBody, atBody, hmove]
  cases ExprReader.move config state lexeme with
  | shift next => rfl
  | stop result => cases result <;> rfl

/-- Inside the prototype of a form a change of the token changes the error alone. -/
theorem atPrototype_relabel (h : φ.Admits config) (hasBody : Bool) (state : PrototypeReader.State)
    (lexeme : Lexeme) :
    atPrototype config hasBody state (φ.lexeme lexeme) =
      (atPrototype config hasBody state lexeme).relabel φ := by
  have hmove : PrototypeReader.move state (φ.lexeme lexeme) =
      (PrototypeReader.move state lexeme).relabel φ := PrototypeReader.respects h state lexeme
  rw [atPrototype, atPrototype, hmove]
  cases PrototypeReader.move state lexeme with
  | shift next => rfl
  | stop result =>
    cases result with
    | error error => rfl
    | ok prototype =>
      cases hasBody with
      | false => rfl
      | true => exact atBody_relabel h _ _ _

/-- In every state of the reader of forms a change of the token changes the error alone. -/
theorem respects (h : φ.Admits config) : (machine config).Respects φ := by
  intro state lexeme
  cases state with
  | start =>
    change move config .start (φ.lexeme lexeme) = (move config .start lexeme).relabel φ
    simp only [move]
    rcases h.token_cases lexeme with htoken | ⟨hend, hseparator⟩
    · rw [htoken]
      split
      · rfl
      · rfl
      · exact atBody_relabel h _ _ _
    · rw [hend, hseparator]
      exact atBody_relabel h _ _ _
  | prototype hasBody state => exact atPrototype_relabel h hasBody state lexeme
  | body prototype? state => exact atBody_relabel h prototype? state lexeme

/-- No form goes on with a semicolon that is no operator. -/
theorem ne_separator_of_shift (hseparator : config.operators.precedence? ';' = none)
    {state next : State} {lexeme : Lexeme}
    (h : (machine config).move state lexeme = .shift next) : lexeme.token ≠ .character ';' := by
  intro htoken
  -- The semicolon is in the place of the end of input, which is never used up.
  let φ : Relabeling := ⟨id, .character ';'⟩
  have hlexeme : lexeme = φ.lexeme ⟨.endOfInput, lexeme.position⟩ := by
    obtain ⟨token, position⟩ := lexeme
    cases htoken
    rfl
  rw [hlexeme, respects (.inr ⟨rfl, hseparator⟩)] at h
  cases hmove : (machine config).move state ⟨.endOfInput, lexeme.position⟩ with
  | shift next' => exact absurd rfl ((machine config).token_of_shift hmove)
  | stop result =>
    rw [hmove] at h
    cases h

end FormReader

namespace Feed

variable {σ τ : Type} [CharStream σ] [CharStream τ] {φ : Relabeling} {config : Config}
  {feed : Feed σ} {other : Feed τ} {tail : List Lexeme}

/-- The lookahead is in the place of the other one. -/
theorem lookahead_relabel (h : feed.tape = other.tape.map φ.lexeme ++ tail) :
    feed.lookahead = φ.lexeme other.lookahead := by
  have hhead : feed.tape.head? = some (φ.lexeme other.lookahead) := by
    have hother := head?_tape other
    rw [h]
    cases htape : other.tape with
    | nil => exact absurd htape (tape_ne_nil other)
    | cons lexeme rest =>
      rw [htape, List.head?_cons, Option.some.injEq] at hother
      rw [hother]
      rfl
  rw [head?_tape, Option.some.injEq] at hhead
  exact hhead

/-- The tokens behind the lookahead are in the places of the others. -/
theorem tape_advance_relabel (h : feed.tape = other.tape.map φ.lexeme ++ tail)
    (hne : other.lookahead.token ≠ .endOfInput) :
    feed.advance.tape = other.advance.tape.map φ.lexeme ++ tail := by
  have htape : feed.tape = φ.lexeme other.lookahead ::
      (other.advance.tape.map φ.lexeme ++ tail) := by
    rw [h, tape_of_ne hne]
    rfl
  have htoken : (φ.lexeme other.lookahead).token = other.lookahead.token :=
    Relabeling.token_of_ne hne
  exact tape_advance htape (by rw [htoken]; exact hne)

/-- A machine reads the same from tokens in the places of others, and leaves the tokens in the
places of those that it leaves there. -/
theorem drive_relabel {S α : Type} {machine : Machine S (Except SyntaxError α)}
    (hmachine : machine.Respects φ) (h : feed.tape = other.tape.map φ.lexeme ++ tail) (state : S) :
    (feed.drive machine state).result = φ.result (other.drive machine state).result ∧
      (feed.drive machine state).feed.tape =
        (other.drive machine state).feed.tape.map φ.lexeme ++ tail := by
  fun_induction drive machine state other generalizing feed with
  | case1 state other next hmove ih =>
    have hne := machine.token_of_shift hmove
    have hshift : machine.move state feed.lookahead = .shift next := by
      rw [lookahead_relabel h, hmachine, hmove]
      rfl
    rw [drive_of_shift hshift]
    exact ih (tape_advance_relabel h hne)
  | case2 state other result hmove =>
    have hstop : machine.move state feed.lookahead = .stop (φ.result result) := by
      rw [lookahead_relabel h, hmachine, hmove]
      rfl
    rw [drive_of_stop hstop]
    exact ⟨rfl, h⟩

/-- The form that begins with the lookahead is read the same from tokens in the places of others,
and leaves the tokens in the places of those that it leaves there. -/
theorem readFormHere_relabel (hadmits : φ.Admits config)
    (h : feed.tape = other.tape.map φ.lexeme ++ tail)
    (hne : other.lookahead.token ≠ .endOfInput) :
    (feed.readFormHere config).result = (other.readFormHere config).result.map φ.result ∧
      (feed.readFormHere config).feed.tape =
        (other.readFormHere config).feed.tape.map φ.lexeme ++ tail := by
  have hfeed : feed.lookahead.token ≠ .endOfInput := by
    have htoken : (φ.lexeme other.lookahead).token = other.lookahead.token :=
      Relabeling.token_of_ne hne
    rw [lookahead_relabel h, htoken]
    exact hne
  obtain ⟨hresult, htape⟩ := drive_relabel (FormReader.respects hadmits) h .start
  rw [readFormHere_eq_drive hne, readFormHere_eq_drive hfeed]
  exact ⟨congrArg some hresult, htape⟩

end Feed

end Kaleidoscope
