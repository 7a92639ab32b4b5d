import Kaleidoscope.Proofs.Grammar.Basic

/-!
# What is read was written

The state of the reader of an expression accounts for all tokens that have been used up: they are
what is written in front of the place that it has come to, operand by operand and frame by frame.
Every token that is used up keeps this. The main statement is that a result is the tree of an
expression of the grammar that is written with exactly the tokens used up, and does not nest too
deep. It holds for all operator tables.
-/

namespace Kaleidoscope.Grammar

open ExprReader

variable {config : Config}

/-- Whether some tokens are what is written in front of an operand that is due in an expression,
which is the last of a number of open ones: the pending operands, each with its operator. -/
inductive Before (config : Config) (depth : Nat) : List Pending → List Token → Prop where
  /-- In front of the first operand there is nothing. -/
  | nil : Before config depth [] []
  /-- In front of any other one there are an operand and an operator. -/
  | cons {before : List Pending} {tokens : List Token} {operand : Primary} {operator : Char}
    {precedence : Int32} (hbefore : Before config depth before tokens)
    (hvalid : operand.Valid config.operators)
    (hnesting : depth + operand.nesting ≤ config.maxDepth)
    (hoperator : config.operators.precedence? operator = some precedence) :
    Before config depth (⟨operand.tree config.operators, operator, precedence⟩ :: before)
      (tokens ++ (operand.tokens ++ [.character operator]))

/-- Whether some tokens are what is written in front of an argument that is due. -/
inductive Done (config : Config) (depth : Nat) : List Expr → List Token → Prop where
  /-- In front of the first argument there is nothing. -/
  | nil : Done config depth [] []
  /-- In front of any other one there are an argument and a comma. -/
  | cons {done : List Expr} {tokens : List Token} {argument : Phrase}
    (hdone : Done config depth done tokens) (hvalid : argument.Valid config.operators)
    (hnesting : depth + argument.nesting ≤ config.maxDepth) :
    Done config depth (argument.tree config.operators :: done)
      (tokens ++ (argument.tokens ++ [.character ',']))

/-- Whether some tokens are what is written in front of an expression that is due, inside a number
of open ones. -/
inductive Around (config : Config) : List Frame → Nat → List Token → Prop where
  /-- In front of the outermost expression there is nothing. -/
  | nil : Around config [] 0 []
  /-- In front of a group there is a parenthesis. -/
  | group {stack : List Frame} {depth : Nat} {outer inner : List Token} {before : List Pending}
    (hstack : Around config stack depth outer) (hdepth : depth < config.maxDepth)
    (hbefore : Before config (depth + 1) before inner) :
    Around config (.group before :: stack) (depth + 1) (outer ++ inner ++ [.character '('])
  /-- In front of an argument there are the name of the function, a parenthesis, and the arguments
  before. -/
  | argument {stack : List Frame} {depth : Nat} {outer inner tokens : List Token}
    {before : List Pending} {callee : String} {done : List Expr}
    (hstack : Around config stack depth outer) (hdepth : depth < config.maxDepth)
    (hbefore : Before config (depth + 1) before inner)
    (hdone : Done config (depth + 1) done tokens) :
    Around config (.argument before callee done :: stack) (depth + 1)
      (outer ++ inner ++ (.identifier callee :: .character '(' :: tokens))

/-- Whether some tokens are what is written in front of an operand that is due. -/
structure Due (config : Config) (before : List Pending) (stack : List Frame) (depth : Nat)
    (tokens : List Token) : Prop where
  /-- They are what is in front of the expression, and what is in front of the operand in it. -/
  parts : ∃ outer inner, tokens = outer ++ inner ∧ Around config stack depth outer ∧
    Before config (depth + 1) before inner
  /-- The expression does not begin too deep. -/
  depth_lt : depth < config.maxDepth

/-- Whether some tokens are what has been written in a state of the reader. -/
inductive Written (config : Config) : State → List Token → Prop where
  /-- An expression is due. -/
  | start {stack : List Frame} {depth : Nat} {tokens : List Token}
    (h : Around config stack depth tokens) : Written config ⟨.start, stack, depth⟩ tokens
  /-- An operand is due. -/
  | operand {before : List Pending} {stack : List Frame} {depth : Nat} {tokens : List Token}
    (h : Due config before stack depth tokens) :
    Written config ⟨.operand before, stack, depth + 1⟩ tokens
  /-- A name is the last token. -/
  | name {before : List Pending} {stack : List Frame} {depth : Nat} {tokens : List Token}
    {word : String} (h : Due config before stack depth tokens) :
    Written config ⟨.name before word, stack, depth + 1⟩ (tokens ++ [.identifier word])
  /-- A name and a parenthesis are the last tokens. -/
  | opened {before : List Pending} {stack : List Frame} {depth : Nat} {tokens : List Token}
    {callee : String} (h : Due config before stack depth tokens) :
    Written config ⟨.opened before callee, stack, depth + 1⟩
      (tokens ++ [.identifier callee, .character '('])
  /-- An operand is last. -/
  | operator {before : List Pending} {stack : List Frame} {depth : Nat} {tokens : List Token}
    {last : Primary} (h : Due config before stack depth tokens)
    (hvalid : last.Valid config.operators)
    (hnesting : depth + 1 + last.nesting ≤ config.maxDepth) :
    Written config ⟨.operator before (last.tree config.operators), stack, depth + 1⟩
      (tokens ++ last.tokens)

/-- What is written in front of an operand, the operand, and what follows it make an expression. -/
theorem Before.exists_phrase {depth : Nat} {before : List Pending} {tokens : List Token}
    (h : Before config depth before tokens) (last : Primary) (tail : Tail)
    (hlast : last.Valid config.operators) (htail : tail.Valid config.operators)
    (hnesting : depth + last.nesting ≤ config.maxDepth)
    (hnesting' : depth + tail.nesting ≤ config.maxDepth) :
    ∃ phrase : Phrase, phrase.tokens = tokens ++ (last.tokens ++ tail.tokens) ∧
      phrase.Valid config.operators ∧ depth + phrase.nesting ≤ config.maxDepth + 1 ∧
      phrase.tree config.operators =
        complete before (last.tree config.operators) (tail.links config.operators) := by
  induction h generalizing last tail with
  | nil =>
    refine ⟨.chain last tail, rfl, ⟨hlast, htail⟩, ?_, ?_⟩
    · change depth + (1 + max last.nesting tail.nesting) ≤ _
      omega
    · rw [complete, Expr.ofChain_eq_grouping (tail.links_nonneg htail)]
      rfl
  | @cons before tokens operand operator precedence _ hvalid hoperand hoperator ih =>
    have hmore : depth + max last.nesting tail.nesting ≤ config.maxDepth := by omega
    obtain ⟨phrase, htokens, hphrase, hdepth, htree⟩ :=
      ih operand (.more operator last tail) hvalid ⟨⟨precedence, hoperator⟩, hlast, htail⟩ hoperand
        hmore
    refine ⟨phrase, ?_, hphrase, hdepth, ?_⟩
    · rw [htokens, Tail.tokens, List.append_assoc, List.append_assoc, List.singleton_append]
    · rw [htree, Tail.links, hoperator, Option.getD_some, complete]

/-- What is written in front of an argument, the argument, and those behind it make arguments. -/
theorem Done.exists_arguments {depth : Nat} {done : List Expr} {tokens : List Token}
    (h : Done config depth done tokens) (last : Phrase) (rest : Arguments)
    (hlast : last.Valid config.operators) (hrest : rest.Valid config.operators)
    (hnesting : depth + last.nesting ≤ config.maxDepth)
    (hnesting' : depth + rest.nesting ≤ config.maxDepth) :
    ∃ arguments : Arguments,
      arguments.tokens = tokens ++ (last.tokens ++ rest.furtherTokens) ∧
      arguments.Valid config.operators ∧ depth + arguments.nesting ≤ config.maxDepth ∧
      arguments.trees config.operators =
        done.reverse ++ last.tree config.operators :: rest.trees config.operators := by
  induction h generalizing last rest with
  | nil =>
    refine ⟨.more last rest, rfl, ⟨hlast, hrest⟩, ?_, rfl⟩
    change depth + max last.nesting rest.nesting ≤ _
    omega
  | @cons done tokens argument _ hvalid hargument ih =>
    have hmore : depth + max last.nesting rest.nesting ≤ config.maxDepth := by omega
    obtain ⟨arguments, htokens, harguments, hdepth, htrees⟩ :=
      ih argument (.more last rest) hvalid ⟨hlast, hrest⟩ hargument hmore
    refine ⟨arguments, ?_, harguments, hdepth, ?_⟩
    · rw [htokens, Arguments.furtherTokens, List.append_assoc, List.append_assoc,
        List.singleton_append]
    · rw [htrees, Arguments.trees, List.reverse_cons, List.append_assoc, List.singleton_append]

/-- What is written in front of an operand, and the operand, end with an expression. -/
theorem Due.exists_phrase {before : List Pending} {stack : List Frame} {depth : Nat}
    {tokens : List Token} (h : Due config before stack depth tokens) {last : Primary}
    (hvalid : last.Valid config.operators)
    (hnesting : depth + 1 + last.nesting ≤ config.maxDepth) :
    ∃ outer, ∃ phrase : Phrase, tokens ++ last.tokens = outer ++ phrase.tokens ∧
      Around config stack depth outer ∧ phrase.Valid config.operators ∧
      depth + phrase.nesting ≤ config.maxDepth ∧
      phrase.tree config.operators = complete before (last.tree config.operators) [] := by
  obtain ⟨outer, inner, rfl, houter, hinner⟩ := h.parts
  obtain ⟨phrase, htokens, hphrase, hdepth, htree⟩ :=
    hinner.exists_phrase last .done hvalid trivial hnesting h.depth_lt
  refine ⟨outer, phrase, ?_, houter, hphrase, ?_, htree⟩
  · rw [htokens, Tail.tokens, List.append_nil, List.append_assoc]
  · omega

/-- A token that is used up where an operand is due is written behind what was in front of it. -/
theorem Due.written {before : List Pending} {stack : List Frame} {depth : Nat}
    {tokens : List Token} (h : Due config before stack depth tokens) {lexeme : Lexeme}
    {next : State} (hmove : atOperand before stack (depth + 1) lexeme = .shift next) :
    Written config next (tokens ++ [lexeme.token]) := by
  unfold atOperand at hmove
  split at hmove <;> cases hmove
  · next word htoken =>
    rw [htoken]
    exact .name h
  · next value htoken =>
    rw [htoken]
    have hnesting : depth + 1 + (Primary.number value).nesting ≤ config.maxDepth := h.depth_lt
    exact @Written.operator _ _ _ _ _ (.number value) h trivial hnesting
  · next htoken =>
    rw [htoken]
    obtain ⟨outer, inner, rfl, houter, hinner⟩ := h.parts
    exact .start (.group houter h.depth_lt hinner)

/-- A token that is used up where an expression is due is written behind what was in front of it. -/
theorem Around.written {stack : List Frame} {depth : Nat} {tokens : List Token}
    (h : Around config stack depth tokens) {lexeme : Lexeme} {next : State}
    (hmove : atStart config stack depth lexeme = .shift next) :
    Written config next (tokens ++ [lexeme.token]) := by
  unfold atStart at hmove
  split at hmove
  · cases hmove
  · next hdepth =>
    have hdue : Due config [] stack depth tokens :=
      ⟨⟨tokens, [], (List.append_nil tokens).symm, h, .nil⟩, Nat.not_le.1 hdepth⟩
    exact hdue.written hmove

/-- A token that is used up behind an expression is written behind it: what it closes is an operand
then. -/
theorem Around.written_atEnd {stack : List Frame} {depth : Nat} {outer : List Token}
    (h : Around config stack depth outer) {phrase : Phrase}
    (hvalid : phrase.Valid config.operators) (hnesting : depth + phrase.nesting ≤ config.maxDepth)
    {lexeme : Lexeme} {next : State}
    (hmove : atEnd (phrase.tree config.operators) stack depth lexeme = .shift next) :
    Written config next (outer ++ phrase.tokens ++ [lexeme.token]) := by
  cases h with
  | nil => cases hmove
  | @group stack depth outer inner before hstack hdepth hbefore =>
    simp only [atEnd] at hmove
    split at hmove
    · next htoken =>
      cases hmove
      have hdue : Due config before stack depth (outer ++ inner) :=
        ⟨⟨outer, inner, rfl, hstack, hbefore⟩, hdepth⟩
      have hwritten := @Written.operator _ _ _ _ _ (.group phrase) hdue hvalid hnesting
      rw [htoken, List.append_assoc, List.append_assoc]
      exact hwritten
    · cases hmove
  | @argument stack depth outer inner tokens before callee done hstack hdepth hbefore hdone =>
    simp only [atEnd] at hmove
    split at hmove
    · next htoken =>
      cases hmove
      obtain ⟨arguments, htokens, harguments, hdeep, htrees⟩ :=
        hdone.exists_arguments phrase .none hvalid trivial hnesting hdepth
      have hdue : Due config before stack depth (outer ++ inner) :=
        ⟨⟨outer, inner, rfl, hstack, hbefore⟩, hdepth⟩
      have hwritten := @Written.operator _ _ _ _ _ (.call callee arguments) hdue harguments hdeep
      rw [Primary.tree, htrees, Arguments.trees] at hwritten
      simp only [htoken, htokens, Primary.tokens, Arguments.furtherTokens, List.reverse_cons,
        List.append_assoc, List.cons_append, List.append_nil] at hwritten ⊢
      exact hwritten
    · next htoken =>
      cases hmove
      have hdone' := hdone.cons hvalid hnesting
      have hwritten := @Around.argument _ _ _ _ _ _ _ callee _ hstack hdepth hbefore hdone'
      simp only [htoken, List.append_assoc, List.cons_append] at hwritten ⊢
      exact .start hwritten
    · cases hmove

/-- A token that is used up behind an operand is written behind it. -/
theorem Due.written_atOperator {before : List Pending} {stack : List Frame} {depth : Nat}
    {tokens : List Token} (h : Due config before stack depth tokens) {last : Primary}
    (hvalid : last.Valid config.operators)
    (hnesting : depth + 1 + last.nesting ≤ config.maxDepth) {lexeme : Lexeme} {next : State}
    (hmove : atOperator config before (last.tree config.operators) stack (depth + 1) lexeme =
      .shift next) :
    Written config next (tokens ++ last.tokens ++ [lexeme.token]) := by
  unfold atOperator at hmove
  split at hmove
  · next operator precedence hoperator =>
    cases hmove
    obtain ⟨htoken, hprecedence⟩ := Config.operator?_eq_some hoperator
    obtain ⟨outer, inner, rfl, houter, hinner⟩ := h.parts
    have hbefore := hinner.cons hvalid hnesting hprecedence
    rw [htoken, List.append_assoc, List.append_assoc]
    exact .operand ⟨⟨outer, _, rfl, houter, hbefore⟩, h.depth_lt⟩
  · obtain ⟨outer, phrase, htokens, houter, hphrase, hdepth, htree⟩ :=
      h.exists_phrase hvalid hnesting
    rw [← htree] at hmove
    rw [htokens]
    exact houter.written_atEnd hphrase hdepth hmove

/-- Every token that is used up is written behind those before it. -/
theorem Written.move {state next : State} {tokens : List Token}
    (h : Written config state tokens) {lexeme : Lexeme}
    (hmove : (machine config).move state lexeme = .shift next) :
    Written config next (tokens ++ [lexeme.token]) := by
  cases h with
  | start h => exact h.written hmove
  | operand h => exact h.written hmove
  | @name before stack depth tokens word h =>
    change atName config before word stack (depth + 1) lexeme = _ at hmove
    unfold atName at hmove
    split at hmove
    · next htoken =>
      cases hmove
      rw [htoken, List.append_assoc]
      exact .opened h
    · exact @Due.written_atOperator _ _ _ _ _ h (.name word) trivial h.depth_lt _ _ hmove
  | @opened before stack depth tokens callee h =>
    change atOpened config before callee stack (depth + 1) lexeme = _ at hmove
    unfold atOpened at hmove
    split at hmove
    · next htoken =>
      cases hmove
      rw [htoken, List.append_assoc]
      exact @Written.operator _ _ _ _ _ (.call callee .none) h trivial h.depth_lt
    · obtain ⟨outer, inner, rfl, houter, hinner⟩ := h.parts
      exact (Around.argument houter h.depth_lt hinner .nil).written hmove
  | operator h hvalid hnesting => exact h.written_atOperator hvalid hnesting hmove

/-- All tokens that are used up are written behind those before them. -/
theorem Written.moves {state next : State} {tokens : List Token} (h : Written config state tokens)
    {lexemes : List Lexeme} (hmoves : (machine config).moves state lexemes = .shift next) :
    Written config next (tokens ++ lexemes.map Lexeme.token) :=
  Machine.keeps_of_moves (fun h hmove => h.move hmove) h hmoves

/-- An expression is the result only where nothing is around it. -/
theorem Around.eq_of_atEnd {stack : List Frame} {depth : Nat} {outer : List Token}
    (h : Around config stack depth outer) {tree whole : Expr} {lexeme : Lexeme}
    (hmove : atEnd tree stack depth lexeme = .stop (.ok whole)) :
    depth = 0 ∧ outer = [] ∧ tree = whole := by
  cases h with
  | nil =>
    cases hmove
    exact ⟨rfl, rfl, rfl⟩
  | group =>
    simp only [atEnd] at hmove
    split at hmove <;> cases hmove
  | argument =>
    simp only [atEnd] at hmove
    split at hmove <;> cases hmove

/-- An expression is the result only behind an operand, and it is written with all tokens. -/
theorem Due.exists_result {before : List Pending} {stack : List Frame} {depth : Nat}
    {tokens : List Token} (h : Due config before stack depth tokens) {last : Primary}
    (hvalid : last.Valid config.operators)
    (hnesting : depth + 1 + last.nesting ≤ config.maxDepth) {lexeme : Lexeme} {result : Expr}
    (hmove : atOperator config before (last.tree config.operators) stack (depth + 1) lexeme =
      .stop (.ok result)) :
    ∃ phrase : Phrase, phrase.tokens = tokens ++ last.tokens ∧ phrase.Valid config.operators ∧
      phrase.nesting ≤ config.maxDepth ∧ phrase.tree config.operators = result := by
  unfold atOperator at hmove
  split at hmove
  · cases hmove
  · obtain ⟨outer, phrase, htokens, houter, hphrase, hdepth, htree⟩ :=
      h.exists_phrase hvalid hnesting
    obtain ⟨rfl, rfl, hresult⟩ := houter.eq_of_atEnd hmove
    refine ⟨phrase, htokens.symm, hphrase, ?_, htree.trans hresult⟩
    omega

/-- Where an expression may begin, nothing is the result yet. -/
theorem atStart_ne_ok (stack : List Frame) (depth : Nat) (lexeme : Lexeme) (result : Expr) :
    atStart config stack depth lexeme ≠ .stop (.ok result) := by
  intro h
  unfold atStart atOperand at h
  split at h
  · cases h
  · split at h <;> cases h

/-- A result is the tree of an expression that is written with the tokens used up. -/
theorem Written.exists_result {state : State} {tokens : List Token}
    (h : Written config state tokens) {lexeme : Lexeme} {result : Expr}
    (hmove : (machine config).move state lexeme = .stop (.ok result)) :
    ∃ phrase : Phrase, phrase.tokens = tokens ∧ phrase.Valid config.operators ∧
      phrase.nesting ≤ config.maxDepth ∧ phrase.tree config.operators = result := by
  cases h with
  | start h => exact absurd hmove (atStart_ne_ok _ _ lexeme result)
  | operand h =>
    change atOperand _ _ _ lexeme = _ at hmove
    unfold atOperand at hmove
    split at hmove <;> cases hmove
  | @name before stack depth tokens word h =>
    change atName config before word stack (depth + 1) lexeme = _ at hmove
    unfold atName at hmove
    split at hmove
    · cases hmove
    · exact @Due.exists_result _ _ _ _ _ h (.name word) trivial h.depth_lt _ _ hmove
  | @opened before stack depth tokens callee h =>
    change atOpened config before callee stack (depth + 1) lexeme = _ at hmove
    unfold atOpened at hmove
    split at hmove
    · cases hmove
    · exact absurd hmove (atStart_ne_ok _ _ lexeme result)
  | operator h hvalid hnesting => exact h.exists_result hvalid hnesting hmove

/-- An expression that has been read from a feed is written with the tokens that have been used up,
under all operator tables. -/
theorem exists_phrase_of_readExpr {σ : Type} [CharStream σ] {feed : Feed σ} {result : Expr}
    (h : (feed.readExpr config).result = .ok result) :
    ∃ lexemes, ∃ phrase : Phrase, feed.Leads lexemes (feed.readExpr config).feed ∧
      phrase.tokens = lexemes.map Lexeme.token ∧ phrase.Valid config.operators ∧
      phrase.nesting ≤ config.maxDepth ∧ phrase.tree config.operators = result := by
  obtain ⟨lexemes, state, hleads, hmoves, hstop⟩ :=
    Feed.exists_leads_drive (machine config) .initial feed
  have hinitial : Written config .initial [] := .start .nil
  have hwritten := hinitial.moves hmoves
  change (feed.drive (machine config) .initial).result = _ at h
  rw [h] at hstop
  obtain ⟨phrase, htokens, hvalid, hnesting, htree⟩ := hwritten.exists_result hstop
  exact ⟨lexemes, phrase, hleads, htokens, hvalid, hnesting, htree⟩

end Kaleidoscope.Grammar
