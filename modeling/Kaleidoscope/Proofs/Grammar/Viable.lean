import Kaleidoscope.Proofs.Lexing
import Kaleidoscope.Proofs.Locality
import Kaleidoscope.Proofs.Grammar.Program

/-!
# Viable beginnings

An error is found as early as it can be. What has been used up in front of the token on which a form
fails is the beginning of some form: the groups and calls that are open can be closed, an operand
that is due can be written, and so can what a prototype lacks. Only a limit of nesting can be
reached where nothing else goes on. The main statement says this, and that neither the outcome nor
the tokens used up depend on anything behind the lookahead.
-/

namespace Kaleidoscope

variable {config : Config}

/-- A symbol is written as it is. -/
theorem Token.isSpelled_character {c : Char} (h : isSymbol c = true) :
    (Token.character c).IsSpelled := ⟨.symbol c, rfl, fun _ => h⟩

/-- A letter is written as it is. -/
theorem Token.isSpelled_identifier : (Token.identifier "f").IsSpelled := by
  refine ⟨.word 'f' [], rfl, fun rest => ?_⟩
  exact ⟨by decide, List.forall_mem_nil _, stops_cons (by decide) rest⟩

/-- A number is written as a digit. -/
theorem Token.isSpelled_number : (Token.number (Numeral.value ['1'])).IsSpelled :=
  ⟨.numeral '1' [], rfl, fun rest => ⟨List.all_eq_true.1 rfl, stops_cons (by decide) rest⟩⟩

namespace Grammar

open ExprReader

/-- What is in front of an expression, the expression, and as many parentheses as have been opened
in front of it make an expression. -/
theorem Around.exists_whole {stack : List Frame} {depth : Nat} {outer : List Token}
    (h : Around config stack depth outer) {phrase : Phrase} (hvalid : phrase.Valid config.operators)
    (hnesting : depth + phrase.nesting ≤ config.maxDepth) :
    ∃ back, ∃ whole : Phrase, whole.tokens = outer ++ phrase.tokens ++ back ∧
      whole.Valid config.operators ∧ whole.nesting ≤ config.maxDepth ∧
      ∀ token ∈ back, token = .character ')' := by
  induction h generalizing phrase with
  | nil =>
    refine ⟨[], phrase, ?_, hvalid, ?_, List.forall_mem_nil _⟩
    · rw [List.nil_append, List.append_nil]
    · omega
  | @group stack depth outer inner before hstack hdepth hbefore ih =>
    obtain ⟨phrase', htokens, hphrase, hnesting', _⟩ :=
      hbefore.exists_phrase (.group phrase) .done hvalid trivial hnesting hdepth
    obtain ⟨back, whole, hwhole, hvalid', hdeep, hback⟩ :=
      ih hphrase (by omega)
    refine ⟨.character ')' :: back, whole, ?_, hvalid', hdeep,
      List.forall_mem_cons.2 ⟨rfl, hback⟩⟩
    rw [hwhole, htokens]
    simp only [Primary.tokens, Tail.tokens, List.append_assoc, List.cons_append, List.nil_append,
      List.append_nil]
  | @argument stack depth outer inner tokens before callee done hstack hdepth hbefore hdone ih =>
    obtain ⟨arguments, harguments, hvalidArguments, hdeepArguments, _⟩ :=
      hdone.exists_arguments phrase .none hvalid trivial hnesting hdepth
    obtain ⟨phrase', htokens, hphrase, hnesting', _⟩ :=
      hbefore.exists_phrase (.call callee arguments) .done hvalidArguments trivial hdeepArguments
        hdepth
    obtain ⟨back, whole, hwhole, hvalid', hdeep, hback⟩ :=
      ih hphrase (by omega)
    refine ⟨.character ')' :: back, whole, ?_, hvalid', hdeep,
      List.forall_mem_cons.2 ⟨rfl, hback⟩⟩
    rw [hwhole, htokens]
    simp only [Primary.tokens, Tail.tokens, harguments, Arguments.furtherTokens,
      List.append_assoc, List.cons_append, List.nil_append, List.append_nil]

/-- What is in front of an operand and the operand are closed by parentheses. -/
theorem Due.exists_whole {before : List Pending} {stack : List Frame} {depth : Nat}
    {tokens : List Token} (h : Due config before stack depth tokens) {last : Primary}
    (hvalid : last.Valid config.operators) (hnesting : depth + 1 + last.nesting ≤ config.maxDepth) :
    ∃ back, ∃ whole : Phrase, whole.tokens = tokens ++ last.tokens ++ back ∧
      whole.Valid config.operators ∧ whole.nesting ≤ config.maxDepth ∧
      ∀ token ∈ back, token = .character ')' := by
  obtain ⟨outer, phrase, htokens, houter, hphrase, hdepth, _⟩ := h.exists_phrase hvalid hnesting
  obtain ⟨back, whole, hwhole, hvalid', hdeep, hback⟩ := houter.exists_whole hphrase hdepth
  exact ⟨back, whole, by rw [hwhole, htokens], hvalid', hdeep, hback⟩

/-- In every state in which an expression may go on, what has been used up is the beginning of an
expression. -/
theorem Written.exists_whole {state : State} {tokens : List Token} (h : Written config state tokens)
    (hstart : state.phase = .start → state.depth < config.maxDepth) :
    ∃ back, ∃ whole : Phrase, whole.tokens = tokens ++ back ∧ whole.Valid config.operators ∧
      whole.nesting ≤ config.maxDepth ∧ ∀ token ∈ back, token.IsSpelled := by
  have hclosing : ∀ {front back : List Token}, (∀ token ∈ front, token.IsSpelled) →
      (∀ token ∈ back, token = .character ')') → ∀ token ∈ front ++ back, token.IsSpelled := by
    intro front back hfront hback
    refine List.forall_mem_append.2 ⟨hfront, fun token hmem => ?_⟩
    rw [hback token hmem]
    exact Token.isSpelled_character (by decide)
  have hnumber : ∀ token ∈ [Token.number (Numeral.value ['1'])], token.IsSpelled :=
    List.forall_mem_singleton.2 Token.isSpelled_number
  cases h with
  | @start stack depth tokens h =>
    have hdepth : depth + 1 ≤ config.maxDepth := hstart rfl
    let one : Phrase := .chain (.number (Numeral.value ['1'])) .done
    obtain ⟨back, whole, hwhole, hvalid, hdeep, hback⟩ :=
      @Around.exists_whole _ _ _ _ h one ⟨trivial, trivial⟩ hdepth
    exact ⟨_, whole, hwhole.trans (List.append_assoc _ _ _), hvalid, hdeep,
      hclosing hnumber hback⟩
  | @operand before stack depth tokens h =>
    obtain ⟨back, whole, hwhole, hvalid, hdeep, hback⟩ :=
      @Due.exists_whole _ _ _ _ _ h (.number (Numeral.value ['1'])) trivial h.depth_lt
    exact ⟨_, whole, hwhole.trans (List.append_assoc _ _ _), hvalid, hdeep,
      hclosing hnumber hback⟩
  | @name before stack depth tokens word h =>
    obtain ⟨back, whole, hwhole, hvalid, hdeep, hback⟩ :=
      @Due.exists_whole _ _ _ _ _ h (.name word) trivial h.depth_lt
    exact ⟨back, whole, hwhole, hvalid, hdeep, hclosing (List.forall_mem_nil _) hback⟩
  | @opened before stack depth tokens callee h =>
    obtain ⟨back, whole, hwhole, hvalid, hdeep, hback⟩ :=
      @Due.exists_whole _ _ _ _ _ h (.call callee .none) trivial h.depth_lt
    refine ⟨.character ')' :: back, whole, ?_, hvalid, hdeep, ?_⟩
    · rw [hwhole, List.append_assoc, List.append_assoc]
      rfl
    · exact hclosing (List.forall_mem_singleton.2 (Token.isSpelled_character (by decide))) hback
  | @operator before stack depth tokens last h hvalid hnesting =>
    obtain ⟨back, whole, hwhole, hvalid, hdeep, hback⟩ := h.exists_whole hvalid hnesting
    exact ⟨back, whole, hwhole, hvalid, hdeep, hclosing (List.forall_mem_nil _) hback⟩

end Grammar

/-- In every state of the reader of a prototype, what has been used up is the beginning of one. -/
theorem PrototypeReader.State.exists_prototype (state : State) :
    ∃ back prototype, Grammar.prototypeTokens prototype = state.tokens ++ back ∧
      ∀ token ∈ back, token.IsSpelled := by
  have hopening : (Token.character '(').IsSpelled := Token.isSpelled_character (by decide)
  have hclosing : (Token.character ')').IsSpelled := Token.isSpelled_character (by decide)
  cases state with
  | name =>
    refine ⟨_, ⟨"f", []⟩, rfl, ?_⟩
    exact List.forall_mem_cons.2 ⟨Token.isSpelled_identifier,
      List.forall_mem_cons.2 ⟨hopening, List.forall_mem_singleton.2 hclosing⟩⟩
  | opening callee =>
    refine ⟨[.character '(', .character ')'], ⟨callee, []⟩, rfl, ?_⟩
    exact List.forall_mem_cons.2 ⟨hopening, List.forall_mem_singleton.2 hclosing⟩
  | parameters callee done =>
    exact ⟨[.character ')'], ⟨callee, done.reverse⟩, rfl, List.forall_mem_singleton.2 hclosing⟩
  | closed prototype => exact ⟨[], prototype, (List.append_nil _).symm, List.forall_mem_nil _⟩

namespace FormReader

open Grammar (prototypeTokens Item Phrase)

/-- The word that begins a form with a prototype. -/
def firstWord (hasBody : Bool) : Token := if hasBody then .definitionWord else .externWord

/-- The tokens in front of a body. -/
def bodyFront : Option Prototype → List Token
  | none => []
  | some prototype => .definitionWord :: prototypeTokens prototype

/-- The body of a form as it is written, with a prototype or without. -/
def bodyItem (prototype? : Option Prototype) (body : Phrase) : Item :=
  match prototype? with
  | none => .expression body
  | some prototype => .definition prototype body

/-- The tokens of a form with a body are those in front of the body and those of the body. -/
theorem tokens_bodyItem (prototype? : Option Prototype) (body : Phrase) :
    (bodyItem prototype? body).tokens = bodyFront prototype? ++ body.tokens := by
  cases prototype? <;> rfl

/-- A form with a body is admitted if its body is. -/
theorem admitted_bodyItem (prototype? : Option Prototype) {body : Phrase}
    (hvalid : body.Valid config.operators) (hnesting : body.nesting ≤ config.maxDepth) :
    (bodyItem prototype? body).Admitted config := by
  cases prototype? <;> exact ⟨hvalid, hnesting⟩

/-- Whether some tokens are what has been written in a state of the reader of forms. -/
inductive Written (config : Config) : State → List Token → Prop where
  /-- In front of a form there is nothing. -/
  | start : Written config .start []
  /-- In front of a part of a prototype there are the first word and the parts before. -/
  | prototype (hasBody : Bool) (state : PrototypeReader.State) :
    Written config (.prototype hasBody state) (firstWord hasBody :: state.tokens)
  /-- In front of a part of a body there are the prototype, if there is one, and the parts
  before. -/
  | body (prototype? : Option Prototype) {state : ExprReader.State} {tokens : List Token}
    (h : Grammar.Written config state tokens) :
    Written config (.body prototype? state) (bodyFront prototype? ++ tokens)

/-- A token that is used up in a body is written behind those before it. -/
theorem Written.of_atBody {prototype? : Option Prototype} {state : ExprReader.State}
    {tokens : List Token} (h : Grammar.Written config state tokens) {lexeme : Lexeme} {next : State}
    (hmove : atBody config prototype? state lexeme = .shift next) :
    Written config next (bodyFront prototype? ++ tokens ++ [lexeme.token]) := by
  unfold atBody at hmove
  split at hmove
  · next next' hnext =>
    cases hmove
    rw [List.append_assoc]
    exact .body prototype? (h.move hnext)
  · cases hmove

/-- Where nothing has been written of a body, an expression is due. -/
theorem written_initial : Grammar.Written config .initial [] := .start .nil

/-- Every token that is used up for a form is written behind those before it. -/
theorem Written.move {state next : State} {tokens : List Token} (h : Written config state tokens)
    {lexeme : Lexeme} (hmove : (machine config).move state lexeme = .shift next) :
    Written config next (tokens ++ [lexeme.token]) := by
  cases h with
  | start =>
    change FormReader.move config .start lexeme = _ at hmove
    simp only [FormReader.move] at hmove
    split at hmove
    · next htoken =>
      cases hmove
      rw [htoken]
      exact .prototype true .name
    · next htoken =>
      cases hmove
      rw [htoken]
      exact .prototype false .name
    · exact of_atBody written_initial hmove
  | prototype hasBody state =>
    change atPrototype config hasBody state lexeme = _ at hmove
    unfold atPrototype at hmove
    split at hmove
    · next next' hnext =>
      cases hmove
      rw [List.cons_append, ← PrototypeReader.tokens_of_move hnext]
      exact .prototype hasBody next'
    · cases hmove
    · next prototype hstop =>
      obtain rfl := PrototypeReader.eq_closed hstop
      split at hmove
      · next hbody =>
        subst hbody
        have hwritten := of_atBody written_initial hmove
        rw [List.append_nil] at hwritten
        exact hwritten
      · cases hmove
  | body prototype? h => exact of_atBody h hmove

/-- All tokens that are used up for a form are written behind those before them. -/
theorem Written.moves {state next : State} {tokens : List Token} (h : Written config state tokens)
    {lexemes : List Lexeme} (hmoves : (machine config).moves state lexemes = .shift next) :
    Written config next (tokens ++ lexemes.map Lexeme.token) :=
  Machine.keeps_of_moves (fun h hmove => h.move hmove) h hmoves

/-- Whether the body of a form does not begin inside too many open expressions. -/
def State.HasRoom (config : Config) : State → Prop
  | .body _ state => state.phase = .start → state.depth < config.maxDepth
  | _ => 0 < config.maxDepth

/-- What has been used up where there is room is the beginning of a form. -/
theorem Written.exists_item {state : State} {tokens : List Token} (h : Written config state tokens)
    (hroom : state.HasRoom config) (hdepth : 0 < config.maxDepth) :
    ∃ back, ∃ item : Item, item.tokens = tokens ++ back ∧ item.Admitted config ∧
      ∀ token ∈ back, token.IsSpelled := by
  have hbody : ∀ prototype? {state : ExprReader.State} {tokens : List Token},
      Grammar.Written config state tokens →
      (state.phase = .start → state.depth < config.maxDepth) →
      ∃ back, ∃ item : Item, item.tokens = bodyFront prototype? ++ tokens ++ back ∧
        item.Admitted config ∧ ∀ token ∈ back, token.IsSpelled := by
    intro prototype? state tokens hwritten hstart
    obtain ⟨back, whole, hwhole, hvalid, hnesting, hback⟩ := hwritten.exists_whole hstart
    refine ⟨back, bodyItem prototype? whole, ?_, admitted_bodyItem prototype? hvalid hnesting,
      hback⟩
    rw [tokens_bodyItem, hwhole, List.append_assoc]
  cases h with
  | start => exact hbody none written_initial fun _ => hdepth
  | body prototype? h => exact hbody prototype? h hroom
  | prototype hasBody state =>
    obtain ⟨front, prototype, hprototype, hfront⟩ := state.exists_prototype
    cases hasBody with
    | false =>
      refine ⟨front, .external prototype, ?_, ⟨trivial, Nat.zero_le _⟩, hfront⟩
      rw [Item.tokens, hprototype]
      rfl
    | true =>
      obtain ⟨back, item, hitem, hadmitted, hback⟩ :=
        hbody (some prototype) written_initial fun _ => hdepth
      refine ⟨front ++ back, item, ?_, hadmitted, List.forall_mem_append.2 ⟨hfront, hback⟩⟩
      rw [hitem, bodyFront, hprototype]
      simp only [List.cons_append, List.append_assoc, List.append_nil]
      rfl

/-- Where an expression that is due is in error for another reason than its nesting, there is
room. -/
theorem hasRoom_of_error {state : State} {lexeme : Lexeme} {error : SyntaxError}
    (hstop : (machine config).move state lexeme = .stop (.error error))
    (herror : ∀ limit position, error ≠ .nestingTooDeep limit position)
    (hdepth : 0 < config.maxDepth) : state.HasRoom config := by
  cases state with
  | start => exact hdepth
  | prototype hasBody state => exact hdepth
  | body prototype? state =>
    obtain ⟨phase, stack, depth⟩ := state
    intro hphase
    obtain rfl : phase = .start := hphase
    by_contra hlimit
    have hmove : ExprReader.move config ⟨.start, stack, depth⟩ lexeme =
        .stop (.error (.nestingTooDeep config.maxDepth lexeme.position)) :=
      if_pos (Nat.not_lt.1 hlimit)
    change atBody config prototype? _ lexeme = _ at hstop
    rw [atBody, hmove] at hstop
    cases hstop
    exact herror _ _ rfl

end FormReader

namespace Feed

variable {σ : Type} [CharStream σ]

/-- What has been used up for a form that fails, other than by its nesting, is the beginning of a
form. -/
theorem exists_item_of_error (hdepth : 0 < config.maxDepth) {feed : Feed σ}
    (hne : feed.lookahead.token ≠ .character ';') {used : List Lexeme}
    (hleads : Leads feed used (feed.readForm config).feed) {error : SyntaxError}
    (hresult : (feed.readForm config).result = some (.error error))
    (herror : ∀ limit position, error ≠ .nestingTooDeep limit position) :
    ∃ back, ∃ item : Grammar.Item, item.tokens = used.map Lexeme.token ++ back ∧
      item.Admitted config ∧ ∀ token ∈ back, token.IsSpelled := by
  have hend : feed.lookahead.token ≠ .endOfInput := by
    intro hend
    rw [readForm_of_end hend] at hresult
    cases hresult
  rw [readForm_of_ne hne, readFormHere_eq_drive hend] at hleads hresult
  obtain ⟨used', state, hleads', hmoves, hstop⟩ :=
    exists_leads_drive (FormReader.machine config) .start feed
  obtain rfl := hleads.unique hleads'
  rw [Option.some.inj hresult] at hstop
  have hwritten := FormReader.Written.start.moves hmoves
  exact hwritten.exists_item (FormReader.hasRoom_of_error hstop herror hdepth) hdepth

end Feed

/-- The reading of a form uses up some semicolons and the tokens of the form. Wherever the same
tokens come behind any number of semicolons, and the same token behind them, the outcome is the same
and the same tokens are used up, whatever follows. If the outcome is an error that is not one of
nesting, the tokens of the form are the beginning of a text that is read as one form. -/
theorem Feed.readForm_viable {σ : Type} [CharStream σ] (hregistrable : config.Registrable)
    (hdepth : 1 ≤ config.maxDepth) (cursor : Cursor σ) :
    let feed := Feed.ofScan cursor.scan
    let read := feed.readForm config
    ∃ separators used : List Lexeme,
      (∀ lexeme ∈ separators, lexeme.token = .character ';') ∧
      feed.Leads (separators ++ used) read.feed ∧
      (∀ {τ : Type} [CharStream τ] (other after : Feed τ) (separators' : List Lexeme),
        (∀ lexeme ∈ separators', lexeme.token = .character ';') →
        other.Leads (separators' ++ used) after → after.lookahead = read.feed.lookahead →
        other.readForm config = ⟨read.result, after⟩) ∧
      ∀ error, read.result = some (.error error) →
        (∀ limit position, error ≠ .nestingTooDeep limit position) →
        ∃ text back form, Token.ofString text = used.map Lexeme.token ++ back ∧
          Form.ofStringUnder config text = .ok [form] := by
  intro feed read
  obtain ⟨separators, hseparators, hskip, hne⟩ := feed.exists_separators
  obtain ⟨used, hused⟩ := exists_used config hne
  have hread : read = feed.skipSeparators.readForm config :=
    readForm_of_separators hskip hseparators
  rw [hread]
  have hall : feed.Leads (separators ++ used) (feed.skipSeparators.readForm config).feed :=
    hskip.append hused
  refine ⟨separators, used, hseparators, hall, ?_, ?_⟩
  · intro τ _ other after separators' hseparators' hother hlookahead
    obtain ⟨middle, hmiddle, hafter⟩ := hother.of_append
    rw [readForm_of_separators hmiddle hseparators']
    exact readForm_of_leads hne hused hafter hlookahead
  · intro error hresult herror
    obtain ⟨back, item, hitem, hadmitted, hback⟩ :=
      exists_item_of_error hdepth hne hused hresult herror
    have hspelled : ∀ token ∈ item.tokens, token.IsSpelled := by
      rw [hitem]
      refine List.forall_mem_append.2 ⟨fun token hmem => ?_, hback⟩
      obtain ⟨lexeme, hlexeme, rfl⟩ := List.mem_map.1 hmem
      exact hall.isSpelled lexeme (List.mem_append_right _ hlexeme)
    obtain ⟨text, htext⟩ := Token.exists_ofString hspelled
    exact ⟨text, back, _, htext.trans hitem, Grammar.Program.ofStringUnder_of_item
      hregistrable.keepsPunctuation hadmitted htext⟩

/-- The text `f(x` lacks a parenthesis, and is the beginning of a form. -/
theorem Feed.readForm_viable_of_open_call :
    Config.standard.Registrable ∧ 1 ≤ Config.standard.maxDepth ∧
      ((Feed.start (Text.ofString "f(x")).readForm .standard).result =
        some (.error (.expected .argumentEnd ⟨.endOfInput, ⟨1, 4⟩⟩)) ∧
      ∃ text back form,
        Token.ofString text = [.identifier "f", .character '(', .identifier "x"] ++ back ∧
        Form.ofString text = .ok [form] := by
  have hresult : ((Feed.start (Text.ofString "f(x")).readForm .standard).result =
      some (.error (.expected .argumentEnd ⟨.endOfInput, ⟨1, 4⟩⟩)) := by cbv
  have hend : ((Feed.start (Text.ofString "f(x")).readForm .standard).feed.lookahead.token =
      .endOfInput := by cbv
  have htokens : Token.ofString "f(x" = [.identifier "f", .character '(', .identifier "x"] := by
    cbv
  have hdepth : 1 ≤ Config.standard.maxDepth := by decide
  refine ⟨Config.registrable_standard, hdepth, hresult, ?_⟩
  obtain ⟨separators, used, hseparators, hleads, _, hviable⟩ :=
    readForm_viable Config.registrable_standard hdepth (Cursor.start (Text.ofString "f(x"))
  have hnesting : ∀ limit position, (.expected .argumentEnd ⟨.endOfInput, ⟨1, 4⟩⟩ : SyntaxError) ≠
      .nestingTooDeep limit position := by
    intro limit position h
    cases h
  obtain ⟨text, back, form, htext, hform⟩ := hviable _ hresult hnesting
  refine ⟨text, back, form, ?_, hform⟩
  -- All tokens have been used up, and none of them is a semicolon.
  obtain ⟨rest, hall, hrest⟩ := (delivers_ofString "f(x").of_leads hleads
  rw [hrest.eq_nil hend, htokens, List.append_nil, List.map_append] at hall
  cases separators with
  | nil =>
    rw [List.map_nil, List.nil_append] at hall
    rw [htext, hall]
  | cons separator separators =>
    rw [List.map_cons, hseparators separator List.mem_cons_self] at hall
    cases hall

end Kaleidoscope
