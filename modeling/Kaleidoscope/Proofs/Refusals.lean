import Kaleidoscope.Proofs.Readings

/-!
# The token that a reading fails on

A reading that fails leaves the token that it could not go on with where it is, and its error says
where that token is and which one it is. What the grammar asks for at a place is never what stands
there: no token that a reader would have used up is named by the error of that reader. The main
statement says so of every reading, in every state of a session.
-/

namespace Kaleidoscope

namespace SyntaxError

/-- The token that an error says has been found, if it says one. -/
def found? : SyntaxError → Option Token
  | unexpectedToken found => some found.token
  | expected _ found => some found.token
  | nestingTooDeep _ _ => none

/-- Whether an error says where a token is, and which one it is if it says one. -/
structure Names (error : SyntaxError) (lexeme : Lexeme) : Prop where
  /-- The place is that of the token. -/
  position_eq : error.position = lexeme.position
  /-- The token is that one. -/
  found_eq : ∀ token, error.found? = some token → token = lexeme.token

end SyntaxError

/-- What the readers say of a token that they cannot go on with, by what they have come to. -/
inductive Config.Refuses (config : Config) (lexeme : Lexeme) : SyntaxError → Prop where
  /-- No operand begins with the token. -/
  | operand (hname : ∀ name, lexeme.token ≠ .identifier name)
    (hnumber : ∀ value, lexeme.token ≠ .number value) (hopen : lexeme.token ≠ .character '(') :
    config.Refuses lexeme (.unexpectedToken lexeme)
  /-- No prototype begins with the token. -/
  | functionName (hname : ∀ name, lexeme.token ≠ .identifier name) :
    config.Refuses lexeme (.expected .functionName lexeme)
  /-- The token does not open the parameters. -/
  | parametersOpen (hopen : lexeme.token ≠ .character '(') :
    config.Refuses lexeme (.expected .parametersOpen lexeme)
  /-- The token neither is a parameter nor closes the parameters. -/
  | parametersClose (hname : ∀ name, lexeme.token ≠ .identifier name)
    (hclose : lexeme.token ≠ .character ')') :
    config.Refuses lexeme (.expected .parametersClose lexeme)
  /-- The token neither goes on with the expression in a group nor closes the group. -/
  | groupClose (hclose : lexeme.token ≠ .character ')')
    (hoperator : config.operator? lexeme.token = none) :
    config.Refuses lexeme (.expected .groupClose lexeme)
  /-- The token neither goes on with an argument nor ends one. -/
  | argumentEnd (hclose : lexeme.token ≠ .character ')') (hcomma : lexeme.token ≠ .character ',')
    (hoperator : config.operator? lexeme.token = none) :
    config.Refuses lexeme (.expected .argumentEnd lexeme)
  /-- An expression would begin with the token inside as many as there may be. -/
  | nesting : config.Refuses lexeme (.nestingTooDeep config.maxDepth lexeme.position)

variable {config : Config} {lexeme : Lexeme} {error : SyntaxError}

/-- An error with which a token is refused names the token. -/
theorem Config.Refuses.names (h : config.Refuses lexeme error) : error.Names lexeme := by
  have hfound : ∀ {token : Token}, some lexeme.token = some token → token = lexeme.token :=
    fun h => (Option.some.inj h).symm
  cases h with
  | nesting => exact ⟨rfl, fun _ h => nomatch h⟩
  | _ => exact ⟨rfl, fun _ h => hfound h⟩

namespace ExprReader

variable {before : List Pending} {stack : List Frame} {depth : Nat}

/-- Where an operand is due a token is refused that begins none. -/
theorem refuses_of_atOperand (h : atOperand before stack depth lexeme = .stop (.error error)) :
    config.Refuses lexeme error := by
  unfold atOperand at h
  split at h
  · cases h
  · cases h
  · cases h
  · next hname hnumber hopen =>
    cases h
    exact .operand hname hnumber hopen

/-- Where an expression begins a token is refused that begins none, or begins one too deep. -/
theorem refuses_of_atStart (h : atStart config stack depth lexeme = .stop (.error error)) :
    config.Refuses lexeme error := by
  unfold atStart at h
  split at h
  · cases h
    exact .nesting
  · exact refuses_of_atOperand h

/-- Behind a finished expression the token is no operator and does not close what is around. -/
theorem refuses_of_atEnd {expr : Expr} (hoperator : config.operator? lexeme.token = none)
    (h : atEnd expr stack depth lexeme = .stop (.error error)) : config.Refuses lexeme error := by
  cases stack with
  | nil => cases h
  | cons frame stack =>
    cases frame with
    | group before =>
      simp only [atEnd] at h
      split at h
      · cases h
      · next hclose =>
        cases h
        exact .groupClose hclose hoperator
    | argument before callee done =>
      simp only [atEnd] at h
      split at h
      · cases h
      · cases h
      · next hclose hcomma =>
        cases h
        exact .argumentEnd hclose hcomma hoperator

/-- Behind an operand a token is refused that is no operator. -/
theorem refuses_of_atOperator {last : Expr}
    (h : atOperator config before last stack depth lexeme = .stop (.error error)) :
    config.Refuses lexeme error := by
  unfold atOperator at h
  split at h
  · cases h
  · next hoperator => exact refuses_of_atEnd hoperator h

/-- In every state the reader of expressions fails on a token that it refuses. -/
theorem refuses_of_move {state : State} (h : move config state lexeme = .stop (.error error)) :
    config.Refuses lexeme error := by
  obtain ⟨phase, stack, depth⟩ := state
  cases phase with
  | start => exact refuses_of_atStart h
  | operand before => exact refuses_of_atOperand h
  | name before name =>
    change atName config before name stack depth lexeme = _ at h
    unfold atName at h
    split at h
    · cases h
    · exact refuses_of_atOperator h
  | opened before callee =>
    change atOpened config before callee stack depth lexeme = _ at h
    unfold atOpened at h
    split at h
    · cases h
    · exact refuses_of_atStart h
  | operator before last => exact refuses_of_atOperator h

end ExprReader

/-- In every state the reader of prototypes fails on a token that it refuses. -/
theorem PrototypeReader.refuses_of_move {state : State}
    (h : move state lexeme = .stop (.error error)) : config.Refuses lexeme error := by
  cases state with
  | name =>
    simp only [move] at h
    split at h
    · cases h
    · next hname =>
      cases h
      exact .functionName hname
  | opening name =>
    simp only [move] at h
    split at h
    · cases h
    · next hopen =>
      cases h
      exact .parametersOpen hopen
  | parameters name done =>
    simp only [move] at h
    split at h
    · cases h
    · cases h
    · next hname hclose =>
      cases h
      exact .parametersClose hname hclose
  | closed prototype => cases h

namespace Feed

variable {σ α β : Type}

/-- Whether a reading that fails has stopped in front of a token that the readers refuse with its
error. -/
def Outcome.Explained (config : Config) (outcome : Readout σ α) : Prop :=
  ∀ error, outcome.result = some (.error error) → config.Refuses outcome.feed.lookahead error

/-- What is made of the value of a reading does not change how it fails. -/
theorem Outcome.Explained.map {outcome : Read σ α} (h : outcome.whole.Explained config)
    (f : α → β) : (outcome.map f).whole.Explained config := fun error herror =>
  h error (congrArg some (result_map_eq_error.1 (Option.some.inj herror)))

/-- Two readings one behind the other fail as one of them does. -/
theorem Outcome.Explained.andThen {outcome : Read σ α} (h : outcome.whole.Explained config)
    {next : α → Feed σ → Read σ β}
    (hnext : ∀ value feed, (next value feed).whole.Explained config) :
    (outcome.andThen next).whole.Explained config := by
  obtain ⟨result, feed⟩ := outcome
  cases result with
  | ok value => exact hnext value feed
  | error error =>
    intro other herror
    cases herror
    exact h error rfl

variable [CharStream σ]

/-- The run of a machine fails as one of its moves does. -/
theorem explained_drive {S : Type} {machine : Machine S (Except SyntaxError α)}
    (hmachine : ∀ {state : S} {lexeme : Lexeme} {error : SyntaxError},
      machine.move state lexeme = .stop (.error error) → config.Refuses lexeme error)
    (state : S) (feed : Feed σ) : (feed.drive machine state).whole.Explained config := by
  intro error herror
  obtain ⟨_, last, _, _, hstop⟩ := exists_leads_drive machine state feed
  have hresult : (feed.drive machine state).result = .error error := Option.some.inj herror
  rw [hresult] at hstop
  exact hmachine hstop

/-- The reading of an expression fails on a token that is refused. -/
theorem explained_readExpr (config : Config) (feed : Feed σ) :
    (feed.readExpr config).whole.Explained config :=
  explained_drive (fun h => ExprReader.refuses_of_move h) ExprReader.State.initial feed

/-- The reading of a prototype fails on a token that is refused. -/
theorem explained_readPrototype (config : Config) (feed : Feed σ) :
    feed.readPrototype.whole.Explained config :=
  explained_drive (fun h => PrototypeReader.refuses_of_move h) PrototypeReader.State.name feed

/-- The reading of a definition fails on a token that is refused. -/
theorem explained_readDefinition (config : Config) (feed : Feed σ) :
    (feed.readDefinition config).whole.Explained config :=
  (explained_readPrototype config feed.advance).andThen fun _ behind =>
    (explained_readExpr config behind).map _

/-- The reading of a form fails on a token that is refused. -/
theorem explained_readForm (config : Config) (feed : Feed σ) :
    (feed.readForm config).Explained config := by
  rw [readForm, readFormHere]
  split
  · intro error herror
    cases herror
  · exact (explained_readDefinition config _).map _
  · exact (explained_readPrototype config _).map _
  · exact ((explained_readExpr config _).map _).map _

/-- The reading of any construct fails on a token that is refused. -/
theorem explained_read (config : Config) (feed : Feed σ) (construct : Construct) :
    (feed.read config construct).Explained config := by
  cases construct with
  | expr => exact explained_readExpr config feed
  | prototype => exact explained_readPrototype config feed
  | definition => exact explained_readDefinition config feed
  | external => exact explained_readPrototype config feed.advance
  | topLevelExpr => exact (explained_readExpr config feed).map _
  | form => exact explained_readForm config feed

end Feed

namespace Session

variable {σ : Type}

/-- A step that comes to something in any case. -/
def Step.whole {α : Type} (step : Step σ (Except SyntaxError α)) :
    Step σ (Option (Except SyntaxError α)) := ⟨some step.result, step.session⟩

variable [CharStream σ]

/-- Reads a construct. -/
def read (session : Session σ) :
    (construct : Construct) → Step σ (Option (Except SyntaxError construct.Value))
  | .expr => session.readExpr.whole
  | .prototype => session.readPrototype.whole
  | .definition => session.readDefinition.whole
  | .external => session.readExtern.whole
  | .topLevelExpr => session.readTopLevelExpr.whole
  | .form => session.readForm

/-- A session reads from its feed under its configuration, and keeps that. -/
theorem read_eq (session : Session σ) (construct : Construct) :
    session.read construct = session.withFeed (session.feed.read session.config construct) := by
  cases construct <;> rfl

/-- In whatever state a session is: When it fails to read something, the error says the place of the
token that comes next, and no other token than that one. The configuration is what it was. The
token neither begins an operand where one is due nor goes on with a prototype, a group or an
argument where that is asked for. -/
theorem read_refuses {session : Session σ} {construct : Construct} {error : SyntaxError}
    (h : (session.read construct).result = some (.error error)) :
    let after := (session.read construct).session
    error.position = after.lookahead.position ∧
      (∀ token, error.found? = some token → token = after.lookahead.token) ∧
      after.config = session.config ∧ session.config.Refuses after.lookahead error := by
  rw [read_eq] at h ⊢
  have hrefuses : session.config.Refuses
      (session.feed.read session.config construct).feed.lookahead error :=
    Feed.explained_read session.config session.feed construct error h
  exact ⟨hrefuses.names.position_eq, hrefuses.names.found_eq, rfl, hrefuses⟩

/-- After an error and a change of the table, a call breaks off at what was an operator before. -/
theorem read_refuses_of_removed :
    let session := (Session.start (Text.ofString ") f(x-y") .standard).performAll
      [.readExpr, .remove '-', .advance]
    let after := (session.read .form).session
    (session.read .form).result =
        some (.error (.expected .argumentEnd ⟨.character '-', ⟨1, 6⟩⟩)) ∧
      after.lookahead.position = ⟨1, 6⟩ ∧ after.lookahead.token = .character '-' ∧
      after.config.operator? (.character '-') = none := by
  intro session after
  have hresult : (session.read .form).result =
      some (.error (.expected .argumentEnd ⟨.character '-', ⟨1, 6⟩⟩)) := by cbv
  obtain ⟨hposition, hfound, hconfig, hrefuses⟩ := read_refuses hresult
  have htoken : Token.character '-' = after.lookahead.token := hfound _ rfl
  refine ⟨hresult, hposition.symm, htoken.symm, ?_⟩
  rw [hconfig]
  rfl

end Session

end Kaleidoscope
