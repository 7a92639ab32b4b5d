import Kaleidoscope.Proofs.Chain
import Kaleidoscope.Proofs.Readings

/-!
# The depth limit

The reader of an expression counts the expressions that are open, and that is one for each
parenthesis that has been opened and not closed, and one more. So the limit is reached exactly where
that many parentheses are open, whatever else has been read. A reading that does not come to the
limit does not depend on it. The main statement says both of everything that can be read.
-/

namespace Kaleidoscope

namespace Token

/-- Whether a token is a given character. -/
def isCharacter (c : Char) : Token → Bool
  | .character d => d == c
  | _ => false

/-- The number of tokens that are a given character. -/
def count (c : Char) (tokens : List Token) : Nat := tokens.countP (isCharacter c)

/-- A further token is counted if it is the character. -/
theorem count_concat_self (c : Char) (tokens : List Token) :
    count c (tokens ++ [.character c]) = count c tokens + 1 := by
  have hself : isCharacter c (.character c) = true := beq_self_eq_true c
  rw [count, List.countP_append, List.countP_singleton, if_pos hself]
  rfl

/-- A further token is not counted if it is not the character. -/
theorem count_concat_of_ne {c : Char} {token : Token} (h : token ≠ .character c)
    (tokens : List Token) : count c (tokens ++ [token]) = count c tokens := by
  have hne : ¬isCharacter c token = true := by
    cases token with
    | character d =>
      intro hd
      exact h (congrArg character (beq_iff_eq.1 hd))
    | _ => exact Bool.noConfusion
  rw [count, List.countP_append, List.countP_singleton, if_neg hne]
  rfl

/-- Whether some tokens open so many more parentheses than they close. -/
def Opens (tokens : List Token) (number : Nat) : Prop :=
  count '(' tokens = count ')' tokens + number

namespace Opens

variable {tokens : List Token} {number : Nat}

/-- An opening parenthesis opens one more. -/
theorem opening (h : Opens tokens number) : Opens (tokens ++ [.character '(']) (number + 1) := by
  have hne : Token.character '(' ≠ .character ')' := by simp
  rw [Opens, count_concat_self, count_concat_of_ne hne, h]
  rfl

/-- A closing parenthesis closes one of those that are open. -/
theorem closing (h : Opens tokens (number + 1)) : Opens (tokens ++ [.character ')']) number := by
  have hne : Token.character ')' ≠ .character '(' := by simp
  rw [Opens, count_concat_self, count_concat_of_ne hne, h]
  omega

/-- A token that is no parenthesis neither opens nor closes one. -/
theorem other (h : Opens tokens number) {token : Token} (hopen : token ≠ .character '(')
    (hclose : token ≠ .character ')') : Opens (tokens ++ [token]) number := by
  rw [Opens, count_concat_of_ne hopen, count_concat_of_ne hclose]
  exact h

end Opens

end Token

namespace ExprReader

variable {config : Config}

/-- Whether a state has one frame for each parenthesis that some tokens leave open, counts the
expressions that are open, and has not too many of them. -/
inductive Balanced (config : Config) : State → List Token → Prop where
  /-- An expression is due inside those of the frames. -/
  | start {stack : List Frame} {tokens : List Token} (hopens : Token.Opens tokens stack.length)
    (hdepth : stack.length ≤ config.maxDepth) : Balanced config ⟨.start, stack, stack.length⟩ tokens
  /-- The parenthesis of a call has no frame before the arguments begin. -/
  | opened {before : List Pending} {callee : String} {stack : List Frame} {tokens : List Token}
    (hopens : Token.Opens tokens (stack.length + 1)) (hdepth : stack.length < config.maxDepth) :
    Balanced config ⟨.opened before callee, stack, stack.length + 1⟩ tokens
  /-- An operand is due. -/
  | operand {before : List Pending} {stack : List Frame} {tokens : List Token}
    (hopens : Token.Opens tokens stack.length) (hdepth : stack.length < config.maxDepth) :
    Balanced config ⟨.operand before, stack, stack.length + 1⟩ tokens
  /-- A name is the last token. -/
  | name {before : List Pending} {word : String} {stack : List Frame} {tokens : List Token}
    (hopens : Token.Opens tokens stack.length) (hdepth : stack.length < config.maxDepth) :
    Balanced config ⟨.name before word, stack, stack.length + 1⟩ tokens
  /-- An operand is last. -/
  | operator {before : List Pending} {last : Expr} {stack : List Frame} {tokens : List Token}
    (hopens : Token.Opens tokens stack.length) (hdepth : stack.length < config.maxDepth) :
    Balanced config ⟨.operator before last, stack, stack.length + 1⟩ tokens

namespace Balanced

variable {before : List Pending} {stack : List Frame} {tokens : List Token} {lexeme : Lexeme}
  {next : State}

/-- A token that is used up where an operand is due keeps the balance. -/
theorem of_atOperand (hopens : Token.Opens tokens stack.length)
    (hdepth : stack.length < config.maxDepth)
    (hmove : atOperand before stack (stack.length + 1) lexeme = .shift next) :
    Balanced config next (tokens ++ [lexeme.token]) := by
  unfold atOperand at hmove
  split at hmove
  · next word htoken =>
    cases hmove
    rw [htoken]
    exact .name (hopens.other Token.noConfusion Token.noConfusion) hdepth
  · next value htoken =>
    cases hmove
    rw [htoken]
    exact .operator (hopens.other Token.noConfusion Token.noConfusion) hdepth
  · next htoken =>
    cases hmove
    rw [htoken]
    exact @start _ (.group before :: stack) _ hopens.opening hdepth
  · cases hmove

/-- A token that is used up where an expression is due keeps the balance. -/
theorem of_atStart (hopens : Token.Opens tokens stack.length)
    (hmove : atStart config stack stack.length lexeme = .shift next) :
    Balanced config next (tokens ++ [lexeme.token]) := by
  unfold atStart at hmove
  split at hmove
  · cases hmove
  · next hdepth => exact of_atOperand hopens (Nat.not_le.1 hdepth) hmove

/-- A token that is used up behind an expression keeps the balance. -/
theorem of_atEnd {expr : Expr} (hopens : Token.Opens tokens stack.length)
    (hdepth : stack.length ≤ config.maxDepth)
    (hmove : atEnd expr stack stack.length lexeme = .shift next) :
    Balanced config next (tokens ++ [lexeme.token]) := by
  cases stack with
  | nil => cases hmove
  | cons frame stack =>
    cases frame with
    | group before =>
      simp only [atEnd] at hmove
      split at hmove
      · next htoken =>
        cases hmove
        rw [htoken]
        exact .operator hopens.closing hdepth
      · cases hmove
    | argument before callee done =>
      simp only [atEnd] at hmove
      split at hmove
      · next htoken =>
        cases hmove
        rw [htoken]
        exact .operator hopens.closing hdepth
      · next htoken =>
        cases hmove
        rw [htoken]
        exact @start _ (.argument before callee (expr :: done) :: stack) _
          (hopens.other (by simp) (by simp)) hdepth
      · cases hmove

variable (hopen : config.operators.precedence? '(' = none)
  (hclose : config.operators.precedence? ')' = none)

include hopen hclose

/-- A token that is used up behind an operand keeps the balance: an operator is no parenthesis. -/
theorem of_atOperator {last : Expr} (hopens : Token.Opens tokens stack.length)
    (hdepth : stack.length < config.maxDepth)
    (hmove : atOperator config before last stack (stack.length + 1) lexeme = .shift next) :
    Balanced config next (tokens ++ [lexeme.token]) := by
  unfold atOperator at hmove
  split at hmove
  · next operator precedence hoperator =>
    cases hmove
    obtain ⟨htoken, hprecedence⟩ := Config.operator?_eq_some hoperator
    have hne : ∀ c, config.operators.precedence? c = none → lexeme.token ≠ .character c := by
      rintro c hc hcharacter
      rw [htoken] at hcharacter
      cases hcharacter
      rw [hc] at hprecedence
      cases hprecedence
    exact .operand (hopens.other (hne '(' hopen) (hne ')' hclose)) hdepth
  · exact of_atEnd hopens (Nat.le_of_lt hdepth) hmove

/-- Every token that is used up keeps the balance. -/
theorem move {state : State} (h : Balanced config state tokens)
    (hmove : (machine config).move state lexeme = .shift next) :
    Balanced config next (tokens ++ [lexeme.token]) := by
  cases h with
  | start hopens hdepth => exact of_atStart hopens hmove
  | @opened before callee stack tokens hopens hdepth =>
    change atOpened config before callee stack (stack.length + 1) lexeme = _ at hmove
    unfold atOpened at hmove
    split at hmove
    · next htoken =>
      cases hmove
      rw [htoken]
      exact .operator hopens.closing hdepth
    · exact @of_atStart _ (.argument before callee [] :: stack) _ _ _ hopens hmove
  | operand hopens hdepth => exact of_atOperand hopens hdepth hmove
  | @name before word stack tokens hopens hdepth =>
    change atName config before word stack (stack.length + 1) lexeme = _ at hmove
    unfold atName at hmove
    split at hmove
    · next htoken =>
      cases hmove
      rw [htoken]
      exact .opened hopens.opening hdepth
    · exact of_atOperator hopen hclose hopens hdepth hmove
  | operator hopens hdepth => exact of_atOperator hopen hclose hopens hdepth hmove

/-- All tokens that are used up keep the balance. -/
theorem moves {state : State} (h : Balanced config state tokens) {lexemes : List Lexeme}
    (hmoves : (machine config).moves state lexemes = .shift next) :
    Balanced config next (tokens ++ lexemes.map Lexeme.token) :=
  Machine.keeps_of_moves (fun h hmove => h.move hopen hclose hmove) h hmoves

end Balanced

section Limit

variable {before : List Pending} {stack : List Frame} {depth : Nat} {lexeme : Lexeme} {limit : Nat}
  {position : Position}

/-- The limit has no part in the reading of an operand. -/
theorem atOperand_ne_nesting :
    atOperand before stack depth lexeme ≠ .stop (.error (.nestingTooDeep limit position)) := by
  intro h
  unfold atOperand at h
  split at h <;> cases h

/-- Behind an expression no nesting is too deep. -/
theorem atEnd_ne_nesting {expr : Expr} :
    atEnd expr stack depth lexeme ≠ .stop (.error (.nestingTooDeep limit position)) := by
  intro h
  cases stack with
  | nil => cases h
  | cons frame stack =>
    cases frame <;> (simp only [atEnd] at h; split at h <;> cases h)

/-- Behind an operand no nesting is too deep. -/
theorem atOperator_ne_nesting {last : Expr} :
    atOperator config before last stack depth lexeme ≠
      .stop (.error (.nestingTooDeep limit position)) := by
  intro h
  unfold atOperator at h
  split at h
  · cases h
  · exact atEnd_ne_nesting h

/-- Where an expression is due the limit is reached by the expressions that are open. -/
theorem limit_of_atStart
    (h : atStart config stack depth lexeme = .stop (.error (.nestingTooDeep limit position))) :
    limit = config.maxDepth ∧ config.maxDepth ≤ depth := by
  unfold atStart at h
  split at h
  · next hdepth =>
    cases h
    exact ⟨rfl, hdepth⟩
  · exact absurd h atOperand_ne_nesting

/-- Where the limit is reached, so many parentheses are open. -/
theorem Balanced.opens {state : State} {tokens : List Token} (h : Balanced config state tokens)
    (hstop : (machine config).move state lexeme = .stop (.error (.nestingTooDeep limit position))) :
    limit = config.maxDepth ∧ Token.Opens tokens config.maxDepth := by
  cases h with
  | @start stack tokens hopens hdepth =>
    obtain ⟨hlimit, hle⟩ := limit_of_atStart hstop
    rw [Nat.le_antisymm hdepth hle] at hopens
    exact ⟨hlimit, hopens⟩
  | @opened before callee stack tokens hopens hdepth =>
    change atOpened config before callee stack (stack.length + 1) lexeme = _ at hstop
    unfold atOpened at hstop
    split at hstop
    · cases hstop
    · obtain ⟨hlimit, hle⟩ := limit_of_atStart hstop
      have hdepth' : stack.length + 1 = config.maxDepth := Nat.le_antisymm hdepth hle
      rw [hdepth'] at hopens
      exact ⟨hlimit, hopens⟩
  | operand hopens hdepth => exact absurd hstop atOperand_ne_nesting
  | @name before word stack tokens hopens hdepth =>
    change atName config before word stack (stack.length + 1) lexeme = _ at hstop
    unfold atName at hstop
    split at hstop
    · cases hstop
    · exact absurd hstop atOperator_ne_nesting
  | operator hopens hdepth => exact absurd hstop atOperator_ne_nesting

/-- Where the limit is not reached, a higher one has no effect on the beginning of an expression. -/
theorem atStart_deeper {deeper : Nat} (h : config.maxDepth ≤ deeper) :
    (∃ position, atStart config stack depth lexeme =
        .stop (.error (.nestingTooDeep config.maxDepth position))) ∨
      atStart { config with maxDepth := deeper } stack depth lexeme =
        atStart config stack depth lexeme := by
  unfold atStart
  by_cases hdepth : config.maxDepth ≤ depth
  · rw [if_pos hdepth]
    exact .inl ⟨lexeme.position, rfl⟩
  · rw [if_neg hdepth]
    dsimp only
    rw [if_neg (by omega)]
    exact .inr rfl

/-- Where the limit is not reached, a higher one has no effect on any move. -/
theorem move_deeper {deeper : Nat} (h : config.maxDepth ≤ deeper) (state : State) :
    (∃ position, (machine config).move state lexeme =
        .stop (.error (.nestingTooDeep config.maxDepth position))) ∨
      (machine { config with maxDepth := deeper }).move state lexeme =
        (machine config).move state lexeme := by
  obtain ⟨phase, stack, depth⟩ := state
  cases phase with
  | start => exact atStart_deeper h
  | operand before => exact .inr rfl
  | name before word => exact .inr rfl
  | opened before callee =>
    change (∃ position, atOpened config before callee stack depth lexeme = _) ∨
      atOpened _ before callee stack depth lexeme = atOpened config before callee stack depth lexeme
    unfold atOpened
    split
    · exact .inr rfl
    · exact atStart_deeper h
  | operator before last => exact .inr rfl

end Limit

end ExprReader

namespace Feed

variable {σ : Type} [CharStream σ] {config : Config}

/-- Where an expression is read without coming to the limit, a higher one has no effect on it. -/
theorem readExpr_deeper {deeper : Nat} (h : config.maxDepth ≤ deeper) {feed : Feed σ}
    (hresult : ∀ limit position,
      (feed.readExpr config).result ≠ .error (.nestingTooDeep limit position)) :
    feed.readExpr { config with maxDepth := deeper } = feed.readExpr config := by
  unfold readExpr at hresult ⊢
  generalize ExprReader.State.initial = state at hresult ⊢
  fun_induction drive (ExprReader.machine config) state feed with
  | case1 state feed next hmove ih =>
    rcases ExprReader.move_deeper h state with ⟨position, hstop⟩ | hsame
    · rw [hstop] at hmove
      cases hmove
    · rw [drive_of_shift (hsame.trans hmove)]
      exact ih hresult
  | case2 state feed result hmove =>
    rcases ExprReader.move_deeper h state with ⟨position, hstop⟩ | hsame
    · rw [hstop] at hmove
      cases hmove
      exact absurd rfl (hresult _ position)
    · exact drive_of_stop (hsame.trans hmove)

/-- Where the reading of an expression comes to the limit, so many parentheses are open among the
tokens that have been used up for it. -/
theorem exists_opens_readExpr (hopen : config.operators.precedence? '(' = none)
    (hclose : config.operators.precedence? ')' = none) {feed : Feed σ} {limit : Nat}
    {position : Position}
    (h : (feed.readExpr config).result = .error (.nestingTooDeep limit position)) :
    limit = config.maxDepth ∧ ∃ used, feed.Leads used (feed.readExpr config).feed ∧
      Token.Opens (used.map Lexeme.token) config.maxDepth := by
  obtain ⟨used, state, hleads, hmoves, hstop⟩ :=
    exists_leads_drive (ExprReader.machine config) .initial feed
  have hbalanced := ExprReader.Balanced.moves hopen hclose
    (@ExprReader.Balanced.start config [] [] rfl (Nat.zero_le _)) hmoves
  have hresult : (feed.drive (ExprReader.machine config) .initial).result = _ := h
  rw [hresult] at hstop
  obtain ⟨hlimit, hopens⟩ := hbalanced.opens hstop
  exact ⟨hlimit, used, hleads, hopens⟩

/-- Where anything is read without coming to the limit, a higher one has no effect on it. -/
theorem read_deeper {deeper : Nat} (h : config.maxDepth ≤ deeper) {feed : Feed σ}
    {construct : Construct}
    (hresult : ∀ limit position,
      (feed.read config construct).result ≠ some (.error (.nestingTooDeep limit position))) :
    feed.read { config with maxDepth := deeper } construct = feed.read config construct :=
  read_congr fun _ hstart => readExpr_deeper h fun limit position herror =>
    hresult limit position (read_of_error hstart herror)

/-- Where the reading of anything comes to the limit, so many parentheses are open among the tokens
that have been used up for the expression in it. -/
theorem exists_opens_read (hopen : config.operators.precedence? '(' = none)
    (hclose : config.operators.precedence? ')' = none) {feed : Feed σ} {construct : Construct}
    {limit : Nat} {position : Position}
    (h : (feed.read config construct).result = some (.error (.nestingTooDeep limit position))) :
    limit = config.maxDepth ∧ ∃ start used, feed.body? construct = some start ∧
      start.Leads used (feed.read config construct).feed ∧
      Token.Opens (used.map Lexeme.token) config.maxDepth := by
  rcases exists_readExpr_of_error h with ⟨_, _, hexpected⟩ | ⟨start, hstart, herror, hfeed⟩
  · cases hexpected
  · obtain ⟨hlimit, used, hleads, hopens⟩ := exists_opens_readExpr hopen hclose herror
    rw [hfeed]
    exact ⟨hlimit, start, used, hstart, hleads, hopens⟩

/-- Where fewer parentheses are opened than there may be expressions, no reading comes to the
limit. -/
theorem ne_nesting_of_count (hopen : config.operators.precedence? '(' = none)
    (hclose : config.operators.precedence? ')' = none) {lexemes : List Lexeme}
    (hcount : Token.count '(' (lexemes.map Lexeme.token) < config.maxDepth) {feed : Feed σ}
    (hfeed : feed.Holds lexemes) (construct : Construct) (limit : Nat) (position : Position) :
    (feed.read config construct).result ≠ some (.error (.nestingTooDeep limit position)) := by
  intro h
  obtain ⟨_, start, used, hstart, hleads, hopens⟩ := exists_opens_read hopen hclose h
  obtain ⟨front, hfront⟩ := ((kept_holds lexemes).body? hfeed hstart).suffix
  have hused : Token.count '(' (used.map Lexeme.token) ≤
      Token.count '(' (lexemes.map Lexeme.token) := by
    rw [← hfront, hleads.lexemes_eq]
    simp only [Token.count, List.map_append, List.countP_append]
    omega
  rw [Token.Opens] at hopens
  omega

/-- In every state that operations lead to, where no parenthesis is an operator: A reading that does
not come to the depth limit gives the same under every higher limit, and leaves the same tokens. A
reading comes to the limit of its configuration only, and it does where the tokens that have been
used up from the beginning of its expression on open exactly as many parentheses more than they
close. So where fewer parentheses are opened in all that is left, no reading comes to the limit, nor
does any form of a run. -/
theorem read_cutOff (source : σ) (before : Config) (operations : List Session.Operation)
    (hopen : config.operators.precedence? '(' = none)
    (hclose : config.operators.precedence? ')' = none) :
    let feed := ((Session.start source before).performAll operations).feed
    (∀ (construct : Construct) (deeper : Nat), config.maxDepth ≤ deeper →
      (∀ limit position,
        (feed.read config construct).result ≠ some (.error (.nestingTooDeep limit position))) →
      feed.read { config with maxDepth := deeper } construct = feed.read config construct) ∧
    (∀ (construct : Construct) (limit : Nat) (position : Position),
      (feed.read config construct).result = some (.error (.nestingTooDeep limit position)) →
      limit = config.maxDepth ∧ ∃ start used, feed.body? construct = some start ∧
        start.Leads used (feed.read config construct).feed ∧
        Token.count '(' (used.map Lexeme.token) =
          Token.count ')' (used.map Lexeme.token) + config.maxDepth) ∧
    (Token.count '(' (feed.lexemes.map Lexeme.token) < config.maxDepth →
      ∀ (limit : Nat) (position : Position),
        (∀ construct, (feed.read config construct).result ≠
          some (.error (.nestingTooDeep limit position))) ∧
        .error (.nestingTooDeep limit position) ∉ (feed.run config).outcomes) := by
  intro feed
  have hholds : feed.Holds feed.lexemes :=
    ⟨List.suffix_refl _, settled_performAll source before operations⟩
  refine ⟨fun construct deeper h hresult => read_deeper h hresult,
    fun construct limit position h => exists_opens_read hopen hclose h,
    fun hcount limit position => ⟨fun construct => ?_, fun hmem => ?_⟩⟩
  · exact ne_nesting_of_count hopen hclose hcount hholds construct limit position
  · obtain ⟨form, hform, hread⟩ := (kept_holds _).exists_readForm hholds hmem
    exact ne_nesting_of_count hopen hclose hcount hform .form limit position hread

/-- A text with four parentheses that open, of which two are open at once in front of its last
name. -/
def nested : Text := Text.ofString "(a) + f(g(), (b))"

/-- Under a limit of two the nested text is cut off at its last name, under a limit of three it is
read as under one of nine, and under a limit of five it is not cut off. -/
theorem read_cutOff_of_nested :
    let feed := Feed.start nested
    (feed.read ⟨.standard, 2⟩ .form).result = some (.error (.nestingTooDeep 2 ⟨1, 15⟩)) ∧
      (∃ start used, feed.body? .form = some start ∧
        start.Leads used (feed.read ⟨.standard, 2⟩ .form).feed ∧
        Token.count '(' (used.map Lexeme.token) = Token.count ')' (used.map Lexeme.token) + 2) ∧
      feed.read ⟨.standard, 9⟩ .form = feed.read ⟨.standard, 3⟩ .form ∧
      ∀ limit position,
        .error (.nestingTooDeep limit position) ∉ (feed.run ⟨.standard, 5⟩).outcomes := by
  intro feed
  have htwo : ((start nested).read ⟨.standard, 2⟩ .form).result =
      some (.error (.nestingTooDeep 2 ⟨1, 15⟩)) := by cbv
  have hthree : ∃ form, ((start nested).read ⟨.standard, 3⟩ .form).result = some (.ok form) :=
    ⟨.function (.anonymous (.binary '+' (.reference "a")
      (.call "f" [.call "g" [], .reference "b"]))), by cbv⟩
  have hfive : Token.count '(' ((start nested).lexemes.map Lexeme.token) < 5 := by cbv
  obtain ⟨_, hcut, _⟩ := @read_cutOff _ _ ⟨.standard, 2⟩ nested .standard [] rfl rfl
  obtain ⟨hdeeper, _⟩ := @read_cutOff _ _ ⟨.standard, 3⟩ nested .standard [] rfl rfl
  obtain ⟨_, _, hfew⟩ := @read_cutOff _ _ ⟨.standard, 5⟩ nested .standard [] rfl rfl
  refine ⟨htwo, (hcut .form 2 _ htwo).2, hdeeper .form 9 (by decide) ?_, fun limit position =>
    (hfew hfive limit position).2⟩
  intro limit position h
  obtain ⟨form, hform⟩ := hthree
  have herror := hform.symm.trans h
  cases herror

end Feed

end Kaleidoscope
