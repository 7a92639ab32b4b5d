import Kaleidoscope.Proofs.Grammar.Reading
import Kaleidoscope.Proofs.Grammar.Written

/-!
# Forms, written and read

What the reader of a form makes of a feed that delivers the tokens of a form of the grammar, and of
which form the tokens are that it has used up. How far an expression reaches is decided by the token
behind it, and so is how far a definition does; a prototype ends by itself.
-/

namespace Kaleidoscope

namespace PrototypeReader

/-- The tokens that lead to a state. -/
def State.tokens : State → List Token
  | .name => []
  | .opening callee => [.identifier callee]
  | .parameters callee done =>
    .identifier callee :: .character '(' :: done.reverse.map Token.identifier
  | .closed prototype => Grammar.prototypeTokens prototype

/-- Every token that is used up is written behind those before it. -/
theorem tokens_of_move {state next : State} {lexeme : Lexeme}
    (h : machine.move state lexeme = .shift next) :
    next.tokens = state.tokens ++ [lexeme.token] := by
  change move state lexeme = _ at h
  cases state with
  | name =>
    simp only [move] at h
    split at h <;> cases h
    next htoken =>
    rw [htoken]
    rfl
  | opening callee =>
    simp only [move] at h
    split at h <;> cases h
    next htoken =>
    rw [htoken]
    rfl
  | parameters callee done =>
    simp only [move] at h
    split at h <;> cases h
    · next htoken =>
      rw [htoken, State.tokens, List.reverse_cons, List.map_append]
      rfl
    · next htoken =>
      rw [htoken]
      rfl
  | closed => cases h

/-- All tokens that are used up are written behind those before them. -/
theorem tokens_of_moves {state next : State} {lexemes : List Lexeme}
    (h : machine.moves state lexemes = .shift next) :
    next.tokens = state.tokens ++ lexemes.map Lexeme.token := by
  refine Machine.keeps_of_moves (P := fun state tokens => state.tokens = tokens) ?_ rfl h
  rintro state next _ lexeme rfl hmove
  exact tokens_of_move hmove

/-- A prototype is read only where one is closed. -/
theorem eq_closed {state : State} {lexeme : Lexeme} {prototype : Prototype}
    (h : machine.move state lexeme = .stop (.ok prototype)) : state = .closed prototype := by
  change move state lexeme = _ at h
  unfold move at h
  split at h
  · split at h <;> cases h
  · split at h <;> cases h
  · split at h <;> cases h
  · cases h
    rfl

/-- Parameters and a closing parenthesis are used up. -/
theorem moves_parameters {lexemes : List Lexeme} {parameters : List String}
    (h : lexemes.map Lexeme.token = parameters.map Token.identifier ++ [.character ')'])
    (name : String) (done : List String) :
    machine.moves (.parameters name done) lexemes =
      .shift (.closed ⟨name, done.reverse ++ parameters⟩) := by
  induction parameters generalizing lexemes done with
  | nil =>
    obtain ⟨lexeme, rest, rfl, htoken, hrest⟩ := List.map_eq_cons_iff.1 h
    obtain rfl := List.map_eq_nil_iff.1 hrest
    have hmove : machine.move (.parameters name done) lexeme =
        .shift (.closed ⟨name, done.reverse⟩) := by
      change move (.parameters name done) lexeme = _
      simp only [move, htoken]
    rw [Machine.moves_cons_of_shift hmove, List.append_nil]
    rfl
  | cons parameter parameters ih =>
    obtain ⟨lexeme, rest, rfl, htoken, hrest⟩ := List.map_eq_cons_iff.1 h
    have hmove : machine.move (.parameters name done) lexeme =
        .shift (.parameters name (parameter :: done)) := by
      change move (.parameters name done) lexeme = _
      simp only [move, htoken]
    rw [Machine.moves_cons_of_shift hmove, ih hrest, List.reverse_cons, List.append_assoc,
      List.singleton_append]

/-- The tokens of a prototype are used up. -/
theorem moves_prototype {lexemes : List Lexeme} {prototype : Prototype}
    (h : lexemes.map Lexeme.token = Grammar.prototypeTokens prototype) :
    machine.moves .name lexemes = .shift (.closed prototype) := by
  obtain ⟨name, rest, rfl, hname, hrest⟩ := List.map_eq_cons_iff.1 h
  obtain ⟨opening, others, rfl, hopening, hothers⟩ := List.map_eq_cons_iff.1 hrest
  have hmove : machine.move .name name = .shift (.opening prototype.name) := by
    change move .name name = _
    simp only [move, hname]
  have hmove' : machine.move (.opening prototype.name) opening =
      .shift (.parameters prototype.name []) := by
    change move (.opening prototype.name) opening = _
    simp only [move, hopening]
  rw [Machine.moves_cons_of_shift hmove, Machine.moves_cons_of_shift hmove',
    moves_parameters hothers]
  rfl

end PrototypeReader

namespace Grammar

open ExprReader

variable {config : Config} {σ : Type} [CharStream σ] {feed : Feed σ}

/-- A prototype is read where its tokens are delivered. -/
theorem readPrototype_of_delivers {prototype : Prototype} {back : List Token}
    (h : feed.Delivers (prototypeTokens prototype ++ back)) :
    feed.readPrototype.result = .ok prototype ∧ feed.readPrototype.feed.Delivers back := by
  obtain ⟨lexemes, rest, hleads, htokens, hback⟩ := h.exists_leads
  have hread : feed.readPrototype = ⟨.ok prototype, rest⟩ := by
    rw [Feed.readPrototype, Feed.drive_of_leads hleads (PrototypeReader.moves_prototype htokens)]
    exact Feed.drive_of_stop rfl
  rw [hread]
  exact ⟨rfl, hback⟩

/-- A prototype that has been read is written with the tokens that have been used up. -/
theorem exists_leads_of_readPrototype {prototype : Prototype}
    (hread : feed.readPrototype.result = .ok prototype) :
    ∃ lexemes, feed.Leads lexemes feed.readPrototype.feed ∧
      lexemes.map Lexeme.token = prototypeTokens prototype := by
  obtain ⟨lexemes, state, hleads, hmoves, hstop⟩ :=
    Feed.exists_leads_drive PrototypeReader.machine .name feed
  change (feed.drive PrototypeReader.machine .name).result = _ at hread
  rw [hread] at hstop
  obtain rfl := PrototypeReader.eq_closed hstop
  have htokens := PrototypeReader.tokens_of_moves hmoves
  rw [PrototypeReader.State.tokens, PrototypeReader.State.tokens, List.nil_append] at htokens
  exact ⟨lexemes, hleads, htokens.symm⟩

/-- A prototype that has been read was delivered. -/
theorem delivers_of_readPrototype {tokens : List Token} (h : feed.Delivers tokens)
    {prototype : Prototype} (hread : feed.readPrototype.result = .ok prototype) :
    ∃ back, tokens = prototypeTokens prototype ++ back ∧
      feed.readPrototype.feed.Delivers back := by
  obtain ⟨lexemes, hleads, hlexemes⟩ := exists_leads_of_readPrototype hread
  obtain ⟨back, rfl, hback⟩ := h.of_leads hleads
  exact ⟨back, by rw [hlexemes], hback⟩

/-- Whether an expression, which may end with a bare name, ends in front of some tokens. -/
structure Follows (config : Config) (bare : Bool) (back : List Token) : Prop where
  /-- No operator goes on with it. -/
  operator : config.operator? (back.headD .endOfInput) = none
  /-- No parenthesis makes a bare name that of a function. -/
  opening : bare = true → back.headD .endOfInput ≠ .character '('

/-- What becomes of a reading where a thing of the grammar is delivered, with some tokens behind it:
the thing is a condition away from nesting too deep. -/
structure Yields {α : Type} (config : Config) (back : List Token) (bare : Bool) (fits : Prop)
    (outcome : Feed.Read σ α) (value : α) : Prop where
  /-- If the thing fits, all of its tokens are used up, and perhaps some more. -/
  passes : fits → ∃ back', outcome.feed.Delivers back' ∧ back' <:+ back
  /-- If it fits and ends where it is said to end, it is what has been read. -/
  result : fits → Follows config bare back →
    outcome.result = .ok value ∧ outcome.feed.Delivers back
  /-- If it does not fit, this is the error. -/
  error : ¬fits → ∃ position, outcome.result = .error (.nestingTooDeep config.maxDepth position)

/-- What is made of a reading comes about as the reading does. -/
theorem Yields.map {α β : Type} {back : List Token} {bare : Bool} {fits : Prop}
    {outcome : Feed.Read σ α} {value : α} (h : Yields config back bare fits outcome value)
    (f : α → β) : Yields config back bare fits (outcome.map f) (f value) where
  passes := h.passes
  result hfits hfollows := by
    obtain ⟨hresult, hback⟩ := h.result hfits hfollows
    exact ⟨by rw [Feed.Outcome.map, hresult]; rfl, hback⟩
  error hnot := by
    obtain ⟨position, hresult⟩ := h.error hnot
    exact ⟨position, by rw [Feed.Outcome.map, hresult]; rfl⟩

/-- An expression is read where its tokens are delivered. -/
theorem Phrase.yields (hkeeps : config.operators.KeepsPunctuation) (phrase : Phrase)
    (hvalid : phrase.Valid config.operators) {back : List Token}
    (h : feed.Delivers (phrase.tokens ++ back)) :
    Yields config back phrase.bare (phrase.nesting ≤ config.maxDepth) (feed.readExpr config)
      (phrase.tree config.operators) := by
  obtain ⟨lexemes, rest, hleads, htokens, hback⟩ := h.exists_leads
  obtain ⟨state, hreads, hends⟩ := phrase.reads hkeeps hvalid [] (Nat.zero_le _)
  obtain ⟨hshift, hstop⟩ := hreads lexemes htokens
  rw [Nat.zero_add] at hshift hstop
  refine ⟨fun hfits => ?_, fun hfits hfollows => ?_, fun hnot => ?_⟩
  · have hread : feed.readExpr config = rest.drive (machine config) state :=
      Feed.drive_of_leads hleads (hshift hfits)
    rw [hread]
    exact hback.drive (machine config) state
  · have hread : feed.readExpr config = rest.drive (machine config) state :=
      Feed.drive_of_leads hleads (hshift hfits)
    have hend : (machine config).move state rest.lookahead =
        .stop (.ok (phrase.tree config.operators)) := by
      rw [hends rest.lookahead, atEnd]
      · rw [hback.lookahead]
        exact hfollows.operator
      · rw [hback.lookahead]
        exact hfollows.opening
    rw [hread, Feed.drive_of_stop hend]
    exact ⟨rfl, hback⟩
  · obtain ⟨position, hmoves⟩ := hstop hnot
    exact ⟨position, Feed.result_drive_of_leads_of_stop hleads hmoves⟩

/-- A prototype and an expression behind it are read where their tokens are delivered. -/
theorem yields_definition (hkeeps : config.operators.KeepsPunctuation) (prototype : Prototype)
    (body : Phrase) (hvalid : body.Valid config.operators) {back : List Token}
    (h : feed.Delivers ((Item.definition prototype body).tokens ++ back)) :
    Yields config back body.bare (body.nesting ≤ config.maxDepth) (feed.readDefinition config)
      ⟨prototype, body.tree config.operators⟩ := by
  rw [Item.tokens, List.cons_append, List.append_assoc] at h
  obtain ⟨hprototype, hfeed⟩ := readPrototype_of_delivers h.advance
  have hread : feed.readDefinition config =
      (feed.advance.readPrototype.feed.readExpr config).map fun body => ⟨prototype, body⟩ := by
    rw [Feed.readDefinition, Feed.Outcome.andThen, hprototype]
  rw [hread]
  exact (body.yields hkeeps hvalid hfeed).map _

/-- A prototype is read behind the word that leads it in. -/
theorem yields_external (prototype : Prototype) {back : List Token}
    (h : feed.Delivers ((Item.external prototype).tokens ++ back)) :
    Yields config back false (0 ≤ config.maxDepth) feed.readExtern prototype := by
  rw [Item.tokens, List.cons_append] at h
  obtain ⟨hprototype, hfeed⟩ := readPrototype_of_delivers h.advance
  exact ⟨fun _ => ⟨back, hfeed, List.suffix_refl _⟩, fun _ _ => ⟨hprototype, hfeed⟩,
    fun hnot => absurd (Nat.zero_le _) hnot⟩

/-- What begins as an operand does is read as an expression. -/
theorem readFormHere_of_beginsOperand (h : BeginsOperand feed.lookahead.token) :
    feed.readFormHere config =
      ⟨some ((feed.readTopLevelExpr config).map Form.function).result,
        (feed.readTopLevelExpr config).feed⟩ := by
  unfold Feed.readFormHere
  split
  · next htoken =>
    rw [htoken] at h
    cases h
  · next htoken =>
    rw [htoken] at h
    cases h
  · next htoken =>
    rw [htoken] at h
    cases h
  · rfl

/-- A form is read where its tokens are delivered. -/
theorem Item.yields (hkeeps : config.operators.KeepsPunctuation) (item : Item)
    (hvalid : item.Valid config.operators) {back : List Token}
    (h : feed.Delivers (item.tokens ++ back)) :
    ∃ outcome : Feed.Read σ Form,
      feed.readFormHere config = ⟨some outcome.result, outcome.feed⟩ ∧
        Yields config back item.bare (item.nesting ≤ config.maxDepth) outcome
          (item.form config.operators) := by
  cases item with
  | external prototype =>
    have hread : feed.readFormHere config =
        ⟨some (feed.readExtern.map Form.external).result, feed.readExtern.feed⟩ := by
      rw [Feed.readFormHere, h.lookahead_cons]
      rfl
    exact ⟨_, hread, (yields_external prototype h).map Form.external⟩
  | definition prototype body =>
    have hread : feed.readFormHere config =
        ⟨some ((feed.readDefinition config).map Form.function).result,
          (feed.readDefinition config).feed⟩ := by
      rw [Feed.readFormHere, h.lookahead_cons]
      rfl
    exact ⟨_, hread, (yields_definition hkeeps prototype body hvalid h).map Form.function⟩
  | expression body =>
    have hbegins : BeginsOperand feed.lookahead.token := by
      obtain ⟨token, rest, htokens, hbegins⟩ := body.exists_tokens
      rw [tokens, htokens, List.cons_append] at h
      rw [h.lookahead_cons]
      exact hbegins
    exact ⟨_, readFormHere_of_beginsOperand hbegins,
      ((body.yields hkeeps hvalid h).map Function.anonymous).map Form.function⟩

/-- An expression that has been read was delivered. -/
theorem delivers_of_readExpr {tokens : List Token} (h : feed.Delivers tokens) {result : Expr}
    (hread : (feed.readExpr config).result = .ok result) :
    ∃ phrase : Phrase, ∃ back, tokens = phrase.tokens ++ back ∧
      (feed.readExpr config).feed.Delivers back ∧ phrase.Valid config.operators ∧
      phrase.nesting ≤ config.maxDepth ∧ phrase.tree config.operators = result := by
  obtain ⟨lexemes, phrase, hleads, htokens, hvalid, hnesting, htree⟩ :=
    exists_phrase_of_readExpr hread
  obtain ⟨back, rfl, hback⟩ := h.of_leads hleads
  exact ⟨phrase, back, by rw [htokens], hback, hvalid, hnesting, htree⟩

omit [CharStream σ] in
/-- What comes of a reading that is made into something else comes of the reading. -/
theorem exists_of_map_result {α β : Type} {outcome : Feed.Read σ α} {f : α → β} {value : β}
    (h : (outcome.map f).result = .ok value) :
    ∃ first, outcome.result = .ok first ∧ f first = value := by
  rw [Feed.Outcome.map] at h
  cases hresult : outcome.result with
  | error error =>
    rw [hresult] at h
    cases h
  | ok first =>
    rw [hresult] at h
    cases h
    exact ⟨first, rfl, rfl⟩

/-- A definition that has been read was delivered behind its first token. -/
theorem delivers_of_readDefinition {token : Token} {tokens : List Token}
    (h : feed.Delivers (token :: tokens)) {function : Function}
    (hread : (feed.readDefinition config).result = .ok function) :
    ∃ prototype, ∃ body : Phrase, ∃ back,
      tokens = prototypeTokens prototype ++ (body.tokens ++ back) ∧
      (feed.readDefinition config).feed.Delivers back ∧ body.Valid config.operators ∧
      body.nesting ≤ config.maxDepth ∧ ⟨prototype, body.tree config.operators⟩ = function := by
  cases hfirst : feed.advance.readPrototype.result with
  | error error =>
    rw [Feed.readDefinition, Feed.Outcome.andThen, hfirst] at hread
    cases hread
  | ok prototype =>
    have hdefinition : feed.readDefinition config =
        (feed.advance.readPrototype.feed.readExpr config).map fun body => ⟨prototype, body⟩ := by
      rw [Feed.readDefinition, Feed.Outcome.andThen, hfirst]
    rw [hdefinition] at hread ⊢
    obtain ⟨rest, rfl, hrest⟩ := delivers_of_readPrototype h.advance hfirst
    obtain ⟨tree, htree, rfl⟩ := exists_of_map_result hread
    obtain ⟨body, back, rfl, hback, hvalid, hnesting, rfl⟩ := delivers_of_readExpr hrest htree
    exact ⟨prototype, body, back, rfl, hback, hvalid, hnesting, rfl⟩

/-- A form that has been read was delivered. -/
theorem delivers_of_readFormHere {tokens : List Token} (h : feed.Delivers tokens) {form : Form}
    (hread : (feed.readFormHere config).result = some (.ok form)) :
    ∃ item : Item, ∃ back, tokens = item.tokens ++ back ∧
      (feed.readFormHere config).feed.Delivers back ∧ item.Admitted config ∧
      item.form config.operators = form := by
  revert hread
  unfold Feed.readFormHere
  split
  · intro hread
    cases hread
  · next htoken =>
    intro hread
    obtain ⟨function, hfunction, rfl⟩ := exists_of_map_result (Option.some.inj hread)
    obtain ⟨rest, rfl⟩ := h.exists_cons htoken Token.noConfusion
    obtain ⟨prototype, body, back, rfl, hback, hvalid, hnesting, rfl⟩ :=
      delivers_of_readDefinition h hfunction
    refine ⟨.definition prototype body, back, ?_, hback, ⟨hvalid, hnesting⟩, rfl⟩
    rw [Item.tokens, List.cons_append, List.append_assoc]
  · next htoken =>
    intro hread
    obtain ⟨prototype, hprototype, rfl⟩ := exists_of_map_result (Option.some.inj hread)
    obtain ⟨rest, rfl⟩ := h.exists_cons htoken Token.noConfusion
    obtain ⟨back, rfl, hback⟩ := delivers_of_readPrototype h.advance hprototype
    exact ⟨.external prototype, back, rfl, hback, ⟨trivial, Nat.zero_le _⟩, rfl⟩
  · intro hread
    obtain ⟨function, hfunction, rfl⟩ := exists_of_map_result (Option.some.inj hread)
    obtain ⟨body, hbody, rfl⟩ := exists_of_map_result hfunction
    obtain ⟨phrase, back, rfl, hback, hvalid, hnesting, rfl⟩ := delivers_of_readExpr h hbody
    exact ⟨.expression phrase, back, rfl, hback, ⟨hvalid, hnesting⟩, rfl⟩

end Grammar

end Kaleidoscope
