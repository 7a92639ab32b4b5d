import Kaleidoscope.Expr.Reading

/-!
# Reading forms

A prototype is read by a machine of its own; a definition is a prototype and an expression behind
it. Forms may be separated by semicolons, and need not be. Reading a form comes nearer to the end
of the input, and so does discarding the token that a form failed on.
-/

namespace Kaleidoscope

namespace PrototypeReader

/-- What a prototype waits for. -/
inductive State where
  /-- The name of the function. -/
  | name
  /-- The parenthesis before the parameters. -/
  | opening (name : String)
  /-- A parameter or the closing parenthesis; the parameters so far are given in reverse. -/
  | parameters (name : String) (done : List String)
  /-- Nothing more. -/
  | closed (prototype : Prototype)

/-- What is read in the end. -/
abbrev Result := Except SyntaxError Prototype

/-- The move of the machine. -/
def move (state : State) (lexeme : Lexeme) : Move State Result :=
  match state with
  | .name =>
    match lexeme.token with
    | .identifier name => .shift (.opening name)
    | _ => .stop (.error (.expected .functionName lexeme))
  | .opening name =>
    match lexeme.token with
    | .character '(' => .shift (.parameters name [])
    | _ => .stop (.error (.expected .parametersOpen lexeme))
  | .parameters name done =>
    match lexeme.token with
    | .identifier parameter => .shift (.parameters name (parameter :: done))
    | .character ')' => .shift (.closed ⟨name, done.reverse⟩)
    | _ => .stop (.error (.expected .parametersClose lexeme))
  | .closed prototype => .stop (.ok prototype)

/-- The end of input is never used up by the reading of a prototype. -/
theorem move_end {state next : State} {lexeme : Lexeme} (h : move state lexeme = .shift next) :
    lexeme.token ≠ .endOfInput := by
  intro hend
  cases state <;> (simp only [move, hend] at h; exact nomatch h)

/-- The machine that reads a prototype. -/
def machine : Machine State Result := ⟨move, move_end⟩

end PrototypeReader

namespace Separators

/-- The move of the machine: a semicolon is used up, and any other token is not. -/
def move (_ : Unit) (lexeme : Lexeme) : Move Unit Unit :=
  match lexeme.token with
  | .character ';' => .shift ()
  | _ => .stop ()

/-- The end of input is no separator. -/
theorem move_end {state next : Unit} {lexeme : Lexeme} (h : move state lexeme = .shift next) :
    lexeme.token ≠ .endOfInput := by
  intro hend
  rw [move, hend] at h
  exact nomatch h

/-- The machine that passes over separators. -/
def machine : Machine Unit Unit := ⟨move, move_end⟩

end Separators

namespace Feed

variable {σ : Type}

/-- What has been read of a kind of thing, or why it was not. -/
abbrev Read (σ α : Type) := Outcome σ (Except SyntaxError α)

/-- A reading whose result is made into something else. -/
def Outcome.map {α β : Type} (outcome : Read σ α) (f : α → β) : Read σ β :=
  ⟨outcome.result.map f, outcome.feed⟩

/-- A reading, and another one behind it unless it failed. -/
def Outcome.andThen {α β : Type} (outcome : Read σ α) (next : α → Feed σ → Read σ β) :
    Read σ β :=
  match outcome.result with
  | .ok result => next result outcome.feed
  | .error error => ⟨.error error, outcome.feed⟩

variable [CharStream σ]

/-- Reads an expression. -/
def readExpr (config : Config) (feed : Feed σ) : Read σ Expr :=
  feed.drive (ExprReader.machine config) .initial

/-- Reads a prototype. -/
def readPrototype (feed : Feed σ) : Read σ Prototype := feed.drive PrototypeReader.machine .name

/-- Discards the lookahead, whatever it is, and reads a prototype and an expression. -/
def readDefinition (config : Config) (feed : Feed σ) : Read σ Function :=
  feed.advance.readPrototype.andThen fun prototype feed =>
    (feed.readExpr config).map fun body => ⟨prototype, body⟩

/-- Discards the lookahead, whatever it is, and reads a prototype. -/
def readExtern (feed : Feed σ) : Read σ Prototype := feed.advance.readPrototype

/-- Reads an expression that is to be evaluated at once. -/
def readTopLevelExpr (config : Config) (feed : Feed σ) : Read σ Function :=
  (feed.readExpr config).map Function.anonymous

/-- Passes over separators. -/
def skipSeparators (feed : Feed σ) : Feed σ := (feed.drive Separators.machine ()).feed

/-- Reads the form that begins with the lookahead, if the input does not end there. -/
def readFormHere (config : Config) (feed : Feed σ) : Outcome σ (Option (Except SyntaxError Form)) :=
  match feed.lookahead.token with
  | .endOfInput => ⟨none, feed⟩
  | .definitionWord =>
    let read := (feed.readDefinition config).map Form.function
    ⟨some read.result, read.feed⟩
  | .externWord =>
    let read := feed.readExtern.map Form.external
    ⟨some read.result, read.feed⟩
  | _ =>
    let read := (feed.readTopLevelExpr config).map Form.function
    ⟨some read.result, read.feed⟩

/-- Reads the next form, if there is one before the end of the input. -/
def readForm (config : Config) (feed : Feed σ) : Outcome σ (Option (Except SyntaxError Form)) :=
  feed.skipSeparators.readFormHere config

/-- A definition whose prototype fails comes to nothing else. -/
theorem readDefinition_of_error {config : Config} {feed : Feed σ} {error : SyntaxError}
    (h : feed.advance.readPrototype.result = .error error) :
    feed.readDefinition config = ⟨.error error, feed.advance.readPrototype.feed⟩ := by
  rw [readDefinition, Outcome.andThen, h]

/-- Behind its prototype a definition is an expression. -/
theorem readDefinition_of_ok {config : Config} {feed : Feed σ} {prototype : Prototype}
    (h : feed.advance.readPrototype.result = .ok prototype) :
    feed.readDefinition config =
      (feed.advance.readPrototype.feed.readExpr config).map fun body => ⟨prototype, body⟩ := by
  rw [readDefinition, Outcome.andThen, h]

/-- There is no form where the input ends. -/
theorem readFormHere_of_end {config : Config} {feed : Feed σ}
    (h : feed.lookahead.token = .endOfInput) :
    feed.readFormHere config = ⟨none, feed⟩ := by
  rw [readFormHere, h]

/-- A reading behind another one does not lead away from the end if it does not by itself. -/
theorem size_andThen_le {α β : Type} {bound : Nat} {outcome : Read σ α}
    {next : α → Feed σ → Read σ β} (hfirst : outcome.feed.size ≤ bound)
    (hnext : ∀ result feed, (next result feed).feed.size ≤ feed.size) :
    (outcome.andThen next).feed.size ≤ bound := by
  unfold Outcome.andThen
  split
  · exact Nat.le_trans (hnext _ _) hfirst
  · exact hfirst

/-- A definition uses up at least the token that it begins with. -/
theorem size_readDefinition_le (config : Config) (feed : Feed σ) :
    (feed.readDefinition config).feed.size ≤ feed.advance.size :=
  size_andThen_le (size_drive_le _ _ _) fun _ _ => size_drive_le _ _ _

/-- An extern uses up at least the token that it begins with. -/
theorem size_readExtern_le (feed : Feed σ) : feed.readExtern.feed.size ≤ feed.advance.size :=
  size_drive_le _ _ _

/-- An expression uses up a token, or fails on the first one. -/
theorem size_readExpr_lt (config : Config) (feed : Feed σ) :
    (feed.readExpr config).feed.size < feed.size ∨
      ((feed.readExpr config).feed = feed ∧
        ∃ error, (feed.readExpr config).result = .error error) := by
  rcases ExprReader.move_initial_cases config feed.lookahead with ⟨next, h⟩ | ⟨error, h⟩
  · exact .inl (size_drive_lt h)
  · right
    have hdrive : feed.readExpr config = ⟨.error error, feed⟩ := drive_of_stop h
    rw [hdrive]
    exact ⟨rfl, error, rfl⟩

/-- Passing over separators does not lead away from the end. -/
theorem size_skipSeparators_le (feed : Feed σ) : feed.skipSeparators.size ≤ feed.size :=
  size_drive_le _ _ _

/-- A form uses up a token, or it is an expression that fails on its first token, which is not the
end of input. -/
theorem size_readFormHere_lt {config : Config} {feed : Feed σ} {result : Except SyntaxError Form}
    (h : (feed.readFormHere config).result = some result) :
    (feed.readFormHere config).feed.size < feed.size ∨
      ((feed.readFormHere config).feed = feed ∧ feed.lookahead.token ≠ .endOfInput ∧
        ∃ error, result = .error error) := by
  revert h
  unfold readFormHere
  split
  · intro h
    exact nomatch h
  · next htoken =>
    intro _
    have hne : feed.lookahead.token ≠ .endOfInput := by rw [htoken]; exact Token.noConfusion
    exact .inl (Nat.lt_of_le_of_lt (size_readDefinition_le config feed) (size_advance_lt hne))
  · next htoken =>
    intro _
    have hne : feed.lookahead.token ≠ .endOfInput := by rw [htoken]; exact Token.noConfusion
    exact .inl (Nat.lt_of_le_of_lt (size_readExtern_le feed) (size_advance_lt hne))
  · next hne _ _ =>
    intro h
    rcases size_readExpr_lt config feed with hlt | ⟨hfeed, error, herror⟩
    · exact .inl hlt
    · right
      refine ⟨hfeed, hne, error, ?_⟩
      simp only [readTopLevelExpr, Outcome.map, herror, Except.map, Option.some.injEq] at h
      exact h.symm

/-- A form that has been read comes nearer to the end. -/
theorem size_readForm_lt {config : Config} {feed : Feed σ} {form : Form}
    (h : (feed.readForm config).result = some (.ok form)) :
    (feed.readForm config).feed.size < feed.size := by
  rcases size_readFormHere_lt h with hlt | ⟨_, _, _, herror⟩
  · exact Nat.lt_of_lt_of_le hlt (size_skipSeparators_le feed)
  · exact nomatch herror

/-- Discarding the token that a form failed on comes nearer to the end. -/
theorem size_advance_readForm_lt {config : Config} {feed : Feed σ} {event : Event}
    {result : Except SyntaxError Form} (h : (feed.readForm config).result = some result) :
    ((feed.readForm config).feed.report event).advance.size < feed.size := by
  have hskip := size_skipSeparators_le feed
  rcases size_readFormHere_lt h with hlt | ⟨hfeed, hne, _⟩
  · exact Nat.lt_of_le_of_lt (size_advance_le _) (Nat.lt_of_lt_of_le hlt hskip)
  · have hfeed' : (feed.readForm config).feed = feed.skipSeparators := hfeed
    rw [hfeed']
    exact Nat.lt_of_lt_of_le (size_advance_lt hne) hskip

end Feed

end Kaleidoscope
