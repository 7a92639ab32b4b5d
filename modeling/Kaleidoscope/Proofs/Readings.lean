import Kaleidoscope.Proofs.Operations
import Kaleidoscope.Proofs.Runs
import Kaleidoscope.Proofs.Grammar.Forms

/-!
# What can be read

The things that can be read from a feed, under one head. Each of them has at most one expression in
it. The main statements say that this is read as an expression by itself is, that nothing else about
a reading depends on the configuration, and that what is kept when tokens are discarded holds in
front of that expression, and in front of every form of a run.
-/

namespace Kaleidoscope

/-- The expression in a form, if there is one. -/
def Form.body? : Form → Option Expr
  | external _ => none
  | function content => some content.body

/-- A kind of thing that can be read. -/
inductive Construct where
  /-- An expression. -/
  | expr
  /-- A prototype. -/
  | prototype
  /-- A definition, behind a token that is discarded. -/
  | definition
  /-- An extern, behind a token that is discarded. -/
  | external
  /-- An expression that is to be evaluated at once. -/
  | topLevelExpr
  /-- A form, if there is one before the end of the input. -/
  | form

namespace Construct

/-- What is read of a construct. -/
def Value : Construct → Type
  | expr => Expr
  | prototype => Prototype
  | definition => Function
  | external => Prototype
  | topLevelExpr => Function
  | form => Form

/-- The expression in what is read of a construct, if there is one. -/
def body? : (construct : Construct) → construct.Value → Option Expr
  | expr => some
  | prototype => fun _ => none
  | definition => some ∘ Function.body
  | external => fun _ => none
  | topLevelExpr => some ∘ Function.body
  | form => Form.body?

end Construct

/-- A prototype fails only for want of what the grammar asks for. -/
theorem PrototypeReader.error_of_stop {state : State} {lexeme : Lexeme} {error : SyntaxError}
    (h : move state lexeme = .stop (.error error)) :
    ∃ expectation, error = .expected expectation lexeme := by
  cases state with
  | closed prototype => cases h
  | _ =>
    simp only [move] at h
    split at h <;> cases h
    exact ⟨_, rfl⟩

namespace Feed

variable {σ : Type}

/-- What comes of a reading: a value or an error, or nothing at the end of the input. -/
abbrev Readout (σ α : Type) := Outcome σ (Option (Except SyntaxError α))

/-- What comes of a reading that comes to something in any case. -/
def Outcome.whole {α : Type} (outcome : Read σ α) : Readout σ α :=
  ⟨some outcome.result, outcome.feed⟩

/-- Nothing of a reading is lost. -/
theorem Outcome.whole_inj {α : Type} {outcome outcome' : Read σ α}
    (h : outcome.whole = outcome'.whole) : outcome = outcome' := by
  obtain ⟨result, feed⟩ := outcome
  obtain ⟨result', feed'⟩ := outcome'
  cases h
  rfl

variable [CharStream σ]

/-- Reads a construct. -/
def read (config : Config) (feed : Feed σ) : (construct : Construct) → Readout σ construct.Value
  | .expr => (feed.readExpr config).whole
  | .prototype => feed.readPrototype.whole
  | .definition => (feed.readDefinition config).whole
  | .external => feed.readExtern.whole
  | .topLevelExpr => (feed.readTopLevelExpr config).whole
  | .form => feed.readForm config

/-- A form that begins with the word of definitions is a definition. -/
theorem readFormHere_of_definition {config : Config} {feed : Feed σ}
    (h : feed.lookahead.token = .definitionWord) :
    feed.readFormHere config = ((feed.readDefinition config).map Form.function).whole := by
  rw [readFormHere, h]
  rfl

/-- A form that begins with the word of externs is an extern. -/
theorem readFormHere_of_external {config : Config} {feed : Feed σ}
    (h : feed.lookahead.token = .externWord) :
    feed.readFormHere config = (feed.readExtern.map Form.external).whole := by
  rw [readFormHere, h]
  rfl

/-- A form that begins with any other token is an expression. -/
theorem readFormHere_of_expr {config : Config} {feed : Feed σ}
    (hend : feed.lookahead.token ≠ .endOfInput)
    (hdefinition : feed.lookahead.token ≠ .definitionWord)
    (hexternal : feed.lookahead.token ≠ .externWord) :
    feed.readFormHere config = ((feed.readTopLevelExpr config).map Form.function).whole := by
  unfold readFormHere
  split
  · contradiction
  · contradiction
  · contradiction
  · rfl

/-- The feed in front of the body of a definition that begins with the lookahead, if its prototype
is read. -/
def definitionBody? (feed : Feed σ) : Option (Feed σ) :=
  match feed.advance.readPrototype with
  | ⟨.ok _, rest⟩ => some rest
  | ⟨.error _, _⟩ => none

/-- The feed in front of the expression in a form that begins with the lookahead, if the reading
comes to one. -/
def formBody? (feed : Feed σ) : Option (Feed σ) :=
  match feed.lookahead.token with
  | .endOfInput => none
  | .definitionWord => feed.definitionBody?
  | .externWord => none
  | _ => some feed

/-- The feed in front of the expression in a construct, if the reading comes to one. -/
def body? (feed : Feed σ) : Construct → Option (Feed σ)
  | .expr => some feed
  | .prototype => none
  | .definition => feed.definitionBody?
  | .external => none
  | .topLevelExpr => some feed
  | .form => feed.skipSeparators.formBody?

/-- Whether a reading comes to one given expression, or to none, and what that has to do with its
value. -/
inductive Surrounds {α : Type} (read : Config → Readout σ α) (start? : Option (Feed σ))
    (body? : α → Option Expr) : Prop where
  /-- It comes to none, and is the same under all configurations. -/
  | nothing (outcome : Readout σ α) (hstart : start? = none)
    (hread : ∀ config, read config = outcome)
    (hvalue : ∀ value, outcome.result = some (.ok value) → body? value = none)
    (herror : ∀ error, outcome.result = some (.error error) →
      ∃ expectation found, error = .expected expectation found)
  /-- It comes to one, and a value is made of that. -/
  | body (start : Feed σ) (build : Expr → α) (hstart : start? = some start)
    (hread : ∀ config, read config = ((start.readExpr config).map build).whole)
    (hvalue : ∀ expr, body? (build expr) = some expr)

/-- When something else is made of the value of a reading, it comes to the same expression. -/
theorem Surrounds.map {α β : Type} {read : Config → Read σ α} {start? : Option (Feed σ)}
    {body? : α → Option Expr} (h : Surrounds (fun config => (read config).whole) start? body?)
    (f : α → β) {body?' : β → Option Expr} (hf : ∀ value, body?' (f value) = body? value) :
    Surrounds (fun config => ((read config).map f).whole) start? body?' := by
  cases h with
  | nothing outcome hstart hread hvalue herror =>
    have hfixed : ∀ config, read config = read default :=
      fun config => Outcome.whole_inj ((hread config).trans (hread default).symm)
    have hmap : ∀ config, ((read config).map f).whole = ((read default).map f).whole :=
      fun config => by rw [hfixed config]
    obtain rfl : (read default).whole = outcome := hread default
    refine .nothing _ hstart hmap ?_ ?_
    all_goals
      generalize read default = first at hvalue herror
      obtain ⟨result, rest⟩ := first
    · rintro value h
      cases result with
      | ok earlier =>
        cases h
        exact (hf earlier).trans (hvalue earlier rfl)
      | error error => cases h
    · rintro error h
      cases result with
      | ok earlier => cases h
      | error error' =>
        cases h
        exact herror error rfl
  | body start build hstart hread hvalue =>
    refine .body start (f ∘ build) hstart (fun config => ?_) fun expr => (hf _).trans (hvalue expr)
    rw [Outcome.whole_inj (hread config), Outcome.map_map]

/-- A prototype fails only for want of what the grammar asks for. -/
theorem error_readPrototype {feed : Feed σ} {error : SyntaxError}
    (h : feed.readPrototype.result = .error error) :
    ∃ expectation found, error = .expected expectation found := by
  obtain ⟨_, state, _, _, hstop⟩ := exists_leads_drive PrototypeReader.machine .name feed
  have hresult : (feed.drive PrototypeReader.machine .name).result = .error error := h
  rw [hresult] at hstop
  obtain ⟨expectation, rfl⟩ := PrototypeReader.error_of_stop hstop
  exact ⟨expectation, _, rfl⟩

/-- A prototype comes to no expression. -/
theorem surrounds_prototype (feed : Feed σ) :
    Surrounds (fun _ => feed.readPrototype.whole) none fun _ => none :=
  .nothing _ rfl (fun _ => rfl) (fun _ _ => rfl) fun _ h => error_readPrototype (Option.some.inj h)

/-- An expression comes to itself. -/
theorem surrounds_expr (feed : Feed σ) :
    Surrounds (fun config => (feed.readExpr config).whole) (some feed) some := by
  refine .body feed id rfl (fun config => ?_) fun _ => rfl
  obtain ⟨result, rest⟩ := feed.readExpr config
  cases result <;> rfl

/-- An expression that is to be evaluated at once comes to the expression. -/
theorem surrounds_topLevelExpr (feed : Feed σ) :
    Surrounds (fun config => (feed.readTopLevelExpr config).whole) (some feed)
      (some ∘ Function.body) :=
  feed.surrounds_expr.map Function.anonymous fun _ => rfl

/-- A definition comes to the expression behind its prototype. -/
theorem surrounds_definition (feed : Feed σ) :
    Surrounds (fun config => (feed.readDefinition config).whole) feed.definitionBody?
      (some ∘ Function.body) := by
  unfold definitionBody? readDefinition
  cases hprototype : feed.advance.readPrototype with
  | mk result rest =>
    cases result with
    | ok prototype => exact .body rest (Function.mk prototype) rfl (fun _ => rfl) fun _ => rfl
    | error error =>
      refine .nothing ⟨some (.error error), rest⟩ rfl (fun _ => rfl) (fun _ h => nomatch h) ?_
      rintro _ ⟨⟩
      exact error_readPrototype (congrArg Outcome.result hprototype)

/-- A form comes to an expression if it is a definition or an expression. -/
theorem surrounds_form (feed : Feed σ) :
    Surrounds (fun config => feed.readFormHere config) feed.formBody? Form.body? := by
  unfold formBody? readFormHere
  have hexpr : Surrounds (fun config => ((feed.readTopLevelExpr config).map Form.function).whole)
      (some feed) Form.body? := feed.surrounds_topLevelExpr.map Form.function fun _ => rfl
  cases feed.lookahead.token with
  | endOfInput =>
    exact .nothing ⟨none, feed⟩ rfl (fun _ => rfl) (fun _ h => nomatch h) fun _ h => nomatch h
  | definitionWord => exact feed.surrounds_definition.map Form.function fun _ => rfl
  | externWord => exact feed.advance.surrounds_prototype.map Form.external fun _ => rfl
  | identifier name => exact hexpr
  | number value => exact hexpr
  | character c => exact hexpr

/-- Every construct has at most one expression in it. -/
theorem surrounds_read (feed : Feed σ) (construct : Construct) :
    Surrounds (feed.read · construct) (feed.body? construct) construct.body? := by
  cases construct with
  | expr => exact feed.surrounds_expr
  | prototype => exact feed.surrounds_prototype
  | definition => exact feed.surrounds_definition
  | external => exact feed.advance.surrounds_prototype
  | topLevelExpr => exact feed.surrounds_topLevelExpr
  | form => exact feed.skipSeparators.surrounds_form

omit [CharStream σ] in
/-- What is made of a reading fails as the reading does. -/
theorem result_map_eq_error {α β : Type} {outcome : Read σ α} {f : α → β} {error : SyntaxError} :
    (outcome.map f).result = .error error ↔ outcome.result = .error error := by
  obtain ⟨result, feed⟩ := outcome
  cases result with
  | ok value => exact iff_of_false nofun nofun
  | error other =>
    exact ⟨fun h => congrArg _ (Except.error.inj h), fun h => congrArg _ (Except.error.inj h)⟩

section Bodies

variable {config : Config} {feed : Feed σ} {construct : Construct}

/-- Where the expression in a construct is read alike, so is the construct. -/
theorem read_congr {config' : Config}
    (h : ∀ start, feed.body? construct = some start →
      start.readExpr config' = start.readExpr config) :
    feed.read config' construct = feed.read config construct := by
  cases feed.surrounds_read construct with
  | nothing outcome _ hread => exact (hread config').trans (hread config).symm
  | body start build hstart hread =>
    have hsame := hread config'
    rw [h start hstart] at hsame
    exact hsame.trans (hread config).symm

/-- The expression in what has been read of a construct has been read. -/
theorem exists_readExpr_of_ok {value : construct.Value}
    (h : (feed.read config construct).result = some (.ok value)) {tree : Expr}
    (htree : construct.body? value = some tree) :
    ∃ start, feed.body? construct = some start ∧ (start.readExpr config).result = .ok tree := by
  cases feed.surrounds_read construct with
  | nothing outcome _ hread hvalue =>
    rw [hread config] at h
    rw [hvalue value h] at htree
    cases htree
  | body start build hstart hread hvalue =>
    rw [hread config] at h
    obtain ⟨expr, hresult, rfl⟩ := Grammar.exists_of_map_result (Option.some.inj h)
    obtain rfl : expr = tree := Option.some.inj ((hvalue expr).symm.trans htree)
    exact ⟨start, hstart, hresult⟩

/-- Where the expression in a construct fails, so does the construct. -/
theorem read_of_error {start : Feed σ} (hstart : feed.body? construct = some start)
    {error : SyntaxError} (h : (start.readExpr config).result = .error error) :
    (feed.read config construct).result = some (.error error) := by
  cases feed.surrounds_read construct with
  | nothing _ hnone =>
    rw [hstart] at hnone
    cases hnone
  | body start' build hstart' hread =>
    obtain rfl : start' = start := Option.some.inj (hstart'.symm.trans hstart)
    rw [hread config]
    exact congrArg some (result_map_eq_error.2 h)

/-- A construct fails for want of what the grammar asks for, or as the expression in it does. -/
theorem exists_readExpr_of_error {error : SyntaxError}
    (h : (feed.read config construct).result = some (.error error)) :
    (∃ expectation found, error = .expected expectation found) ∨
      ∃ start, feed.body? construct = some start ∧
        (start.readExpr config).result = .error error ∧
        (feed.read config construct).feed = (start.readExpr config).feed := by
  cases feed.surrounds_read construct with
  | nothing outcome _ hread _ herror =>
    rw [hread config] at h
    exact .inl (herror error h)
  | body start build hstart hread =>
    have hwhole : feed.read config construct = ((start.readExpr config).map build).whole :=
      hread config
    rw [hwhole] at h ⊢
    exact .inr ⟨start, hstart, result_map_eq_error.1 (Option.some.inj h), rfl⟩

end Bodies

namespace Kept

variable {P : Feed σ → Prop} {feed : Feed σ} {config : Config}

/-- A kept property holds behind any construct that is read. -/
theorem read (kept : Kept P) (h : P feed) (construct : Construct) :
    P (feed.read config construct).feed := by
  cases construct with
  | expr => exact kept.readExpr h
  | prototype => exact kept.readPrototype h
  | definition => exact kept.readDefinition h
  | external => exact kept.readExtern h
  | topLevelExpr => exact kept.readTopLevelExpr h
  | form => exact kept.readForm h

/-- A kept property holds in front of the body of a definition. -/
theorem definitionBody? (kept : Kept P) (h : P feed) {start : Feed σ}
    (hstart : feed.definitionBody? = some start) : P start := by
  have hprototype := kept.readPrototype (kept.advance h)
  unfold Feed.definitionBody? at hstart
  split at hstart
  · next rest heq =>
    cases hstart
    rw [heq] at hprototype
    exact hprototype
  · cases hstart

/-- A kept property holds in front of the expression in a form. -/
theorem formBody? (kept : Kept P) (h : P feed) {start : Feed σ}
    (hstart : feed.formBody? = some start) : P start := by
  unfold Feed.formBody? at hstart
  split at hstart
  · cases hstart
  · exact kept.definitionBody? h hstart
  · cases hstart
  · cases hstart
    exact h

/-- A kept property holds in front of the expression in any construct. -/
theorem body? (kept : Kept P) (h : P feed) {construct : Construct} {start : Feed σ}
    (hstart : feed.body? construct = some start) : P start := by
  have hself : ∀ {start : Feed σ}, some feed = some start → P start := by
    rintro _ ⟨⟩
    exact h
  cases construct with
  | expr => exact hself hstart
  | prototype => cases hstart
  | definition => exact kept.definitionBody? h hstart
  | external => cases hstart
  | topLevelExpr => exact hself hstart
  | form => exact kept.formBody? (kept.drive Separators.machine () h) hstart

/-- A kept property holds in front of every form of a run. -/
theorem exists_readForm (kept : Kept P) (h : P feed) {outcome : Except SyntaxError Form}
    (hmem : outcome ∈ (feed.run config).outcomes) :
    ∃ before : Feed σ, P before ∧ (before.readForm config).result = some outcome := by
  have hrun : ∀ (summary : Summary) (done : List (Except SyntaxError Form)) (feed : Feed σ),
      P feed → outcome ∈ (feed.runFrom config summary done).outcomes →
        outcome ∈ done ∨
          ∃ before : Feed σ, P before ∧ (before.readForm config).result = some outcome := by
    intro summary done feed h hmem
    fun_induction Feed.runFrom config summary done feed with
    | case1 summary done feed read hresult => exact .inl (List.mem_reverse.1 hmem)
    | case2 summary done feed read form hresult ih =>
      rcases ih (kept.report Level.noConfusion (kept.readForm h)) hmem with hdone | hbefore
      · rcases List.mem_cons.1 hdone with rfl | hdone
        · exact .inr ⟨feed, h, hresult⟩
        · exact .inl hdone
      · exact .inr hbefore
    | case3 summary done feed read error hresult ih =>
      have hread : P read.feed := kept.readForm h
      rcases ih (kept.advance (kept.report Level.noConfusion hread)) hmem with hdone | hbefore
      · rcases List.mem_cons.1 hdone with rfl | hdone
        · exact .inr ⟨feed, h, hresult⟩
        · exact .inl hdone
      · exact .inr hbefore
  rcases hrun .nothing [] feed h hmem with hnil | hbefore
  · cases hnil
  · exact hbefore

end Kept

/-- Whether all tokens in front of a feed are among some tokens, and the end of input comes behind
them for good. -/
structure Holds (lexemes : List Lexeme) (feed : Feed σ) : Prop where
  /-- The tokens are the last of the given ones. -/
  suffix : feed.lexemes <:+ lexemes
  /-- Behind the end of input there is nothing. -/
  settled : feed.Settled

/-- No token comes up that was not there before. -/
theorem kept_holds (lexemes : List Lexeme) : Kept (@Holds σ _ lexemes) := by
  refine ⟨fun {feed} h => ⟨?_, settled_advance feed⟩, fun {feed event} _ h =>
    ⟨?_, h.settled.report event⟩⟩
  · by_cases hend : feed.lookahead.token = .endOfInput
    · rw [lexemes_of_end (h.settled hend)]
      exact List.nil_suffix
    · have hsuffix := h.suffix
      rw [lexemes_of_ne hend] at hsuffix
      exact (List.suffix_cons _ _).trans hsuffix
  · rw [Feed.lexemes, tape_report]
    exact h.suffix

/-- What operations on a session lead to has the tokens behind it. -/
theorem settled_performAll (source : σ) (config : Config) (operations : List Session.Operation) :
    ((Session.start source config).performAll operations).feed.Settled :=
  Session.kept_performAll ⟨fun {feed} _ => settled_advance feed, fun _ h => h.report _⟩
    (settled_start source) operations

end Feed

end Kaleidoscope
