import Kaleidoscope.Proofs.Grammar.Basic

/-!
# What is written is read

The reader of an expression goes through the tokens of every expression of the grammar, whatever
surrounds it, and has its tree in the end, as long as no expression in it begins inside too many
others. Otherwise it stops at the first that does. Both are said at once, so that the limit is
exact.
-/

namespace Kaleidoscope

/-- Whether the punctuation that forms are written with is kept out of the operators. -/
structure OperatorTable.KeepsPunctuation (table : OperatorTable) : Prop where
  /-- The parenthesis that opens is no operator. -/
  opening : table.precedence? '(' = none
  /-- The parenthesis that closes is no operator. -/
  closing : table.precedence? ')' = none
  /-- The comma is no operator. -/
  comma : table.precedence? ',' = none
  /-- The semicolon is no operator. -/
  separator : table.precedence? ';' = none

/-- Whether all operators of a configuration are characters that may be registered. -/
def Config.Registrable (config : Config) : Prop :=
  ∀ c precedence, config.operators.precedence? c = some precedence →
    Config.isOperatorCharacter c = true

/-- All standard operators may be registered. -/
theorem Config.registrable_standard : Config.standard.Registrable := by
  intro c precedence hprecedence
  have hget : OperatorTable.standard.entries.lookup c = some precedence :=
    (Option.filter_eq_some_iff.1 hprecedence).1
  obtain ⟨front, back, hentries, _⟩ := List.lookup_eq_some_iff.1 hget
  have hmem : (c, precedence) ∈ OperatorTable.standard.entries := by
    rw [hentries]
    exact List.mem_append_right _ List.mem_cons_self
  have hall : ∀ entry ∈ OperatorTable.standard.entries,
      Config.isOperatorCharacter entry.1 = true := by decide
  exact hall _ hmem

namespace Config.Registrable

variable {config : Config}

/-- A character that may not be registered is no operator. -/
theorem precedence?_eq_none (h : config.Registrable) {c : Char}
    (hc : Config.isOperatorCharacter c = false) : config.operators.precedence? c = none := by
  rw [Option.eq_none_iff_forall_not_mem]
  intro precedence hprecedence
  rw [h c precedence hprecedence] at hc
  cases hc

/-- The punctuation that forms are written with may not be registered. -/
theorem keepsPunctuation (h : config.Registrable) : config.operators.KeepsPunctuation where
  opening := h.precedence?_eq_none (by decide)
  closing := h.precedence?_eq_none (by decide)
  comma := h.precedence?_eq_none (by decide)
  separator := h.precedence?_eq_none (by decide)

end Config.Registrable

namespace ExprReader

variable {config : Config}

/-- Whether the reader goes through some tokens from one state to another one when a condition
holds, and otherwise stops because an expression among them begins inside too many others. -/
def Reads (config : Config) (state : State) (tokens : List Token) (fits : Prop) (next : State) :
    Prop :=
  ∀ lexemes : List Lexeme, lexemes.map Lexeme.token = tokens →
    (fits → (machine config).moves state lexemes = .shift next) ∧
      (¬fits → ∃ position, (machine config).moves state lexemes =
        .stop (.error (.nestingTooDeep config.maxDepth position)))

namespace Reads

/-- On no tokens the reader stays where it is, without a condition. -/
theorem nil (state : State) : Reads config state [] True state := by
  intro lexemes htokens
  obtain rfl := List.map_eq_nil_iff.1 htokens
  exact ⟨fun _ => rfl, fun hfalse => absurd trivial hfalse⟩

/-- A token that is used up leaves the others. -/
theorem cons {state middle next : State} {token : Token} {tokens : List Token} {fits : Prop}
    (hmove : ∀ lexeme : Lexeme, lexeme.token = token →
      (machine config).move state lexeme = .shift middle)
    (h : Reads config middle tokens fits next) :
    Reads config state (token :: tokens) fits next := by
  intro lexemes htokens
  obtain ⟨lexeme, rest, rfl, htoken, hrest⟩ := List.map_eq_cons_iff.1 htokens
  rw [Machine.moves_cons_of_shift (hmove lexeme htoken)]
  exact h rest hrest

/-- Readings compose: both conditions have to hold. -/
theorem append {state middle next : State} {front back : List Token} {fits fits' : Prop}
    (hfront : Reads config state front fits middle)
    (hback : Reads config middle back fits' next) :
    Reads config state (front ++ back) (fits ∧ fits') next := by
  intro lexemes htokens
  obtain ⟨first, second, rfl, hfirst, hsecond⟩ := List.map_eq_append_iff.1 htokens
  obtain ⟨hshift, hstop⟩ := hfront first hfirst
  obtain ⟨hshift', hstop'⟩ := hback second hsecond
  constructor
  · rintro ⟨hfits, hfits'⟩
    rw [Machine.moves_append_of_shift (hshift hfits)]
    exact hshift' hfits'
  · intro hnot
    by_cases hfits : fits
    · rw [Machine.moves_append_of_shift (hshift hfits)]
      exact hstop' fun hfits' => hnot ⟨hfits, hfits'⟩
    · obtain ⟨position, hmoves⟩ := hstop hfits
      exact ⟨position, Machine.moves_append_of_stop hmoves second⟩

/-- The condition under which tokens are read may be put in other words. -/
theorem congr {state next : State} {tokens : List Token} {fits fits' : Prop}
    (h : Reads config state tokens fits next) (hfits : fits ↔ fits') :
    Reads config state tokens fits' next := by
  rw [← propext hfits]
  exact h

end Reads

/-- Whether the reader takes what may follow an expression for the end of an expression with a given
tree: no operator, and no parenthesis if it stands behind a bare name. -/
def Ends (config : Config) (state : State) (tree : Expr) (bare : Bool) (stack : List Frame)
    (depth : Nat) : Prop :=
  ∀ lexeme : Lexeme, config.operator? lexeme.token = none →
    (bare = true → lexeme.token ≠ .character '(') →
    (machine config).move state lexeme = atEnd tree stack depth lexeme

/-- An expression inside another one ends at the character that closes or continues what surrounds
it. -/
theorem Ends.move {state : State} {tree : Expr} {bare : Bool} {stack : List Frame} {depth : Nat}
    (h : Ends config state tree bare stack depth) {c : Char}
    (hoperator : config.operators.precedence? c = none) (hne : c ≠ '(') {next : State}
    (hnext : ∀ lexeme : Lexeme, lexeme.token = .character c →
      atEnd tree stack depth lexeme = .shift next) (lexeme : Lexeme)
    (htoken : lexeme.token = .character c) :
    (machine config).move state lexeme = .shift next := by
  rw [h lexeme, hnext lexeme htoken]
  · rw [htoken]
    exact Config.operator?_character hoperator
  · intro _ hopening
    rw [htoken] at hopening
    cases hopening
    exact hne rfl

/-- A numeral is an operand. -/
theorem move_operand_number {lexeme : Lexeme} {value : Double}
    (h : lexeme.token = .number value) (before : List Pending) (stack : List Frame)
    (depth : Nat) :
    (machine config).move ⟨.operand before, stack, depth⟩ lexeme =
      .shift ⟨.operator before (.number value), stack, depth⟩ := by
  change atOperand before stack depth lexeme = _
  rw [atOperand, h]

/-- A name begins an operand. -/
theorem move_operand_name {lexeme : Lexeme} {word : String} (h : lexeme.token = .identifier word)
    (before : List Pending) (stack : List Frame) (depth : Nat) :
    (machine config).move ⟨.operand before, stack, depth⟩ lexeme =
      .shift ⟨.name before word, stack, depth⟩ := by
  change atOperand before stack depth lexeme = _
  rw [atOperand, h]

/-- A parenthesis begins a group. -/
theorem move_operand_open {lexeme : Lexeme} (h : lexeme.token = .character '(')
    (before : List Pending) (stack : List Frame) (depth : Nat) :
    (machine config).move ⟨.operand before, stack, depth⟩ lexeme =
      .shift ⟨.start, .group before :: stack, depth⟩ := by
  change atOperand before stack depth lexeme = _
  rw [atOperand, h]
  rfl

/-- A parenthesis behind a name begins arguments. -/
theorem move_name_open {lexeme : Lexeme} (h : lexeme.token = .character '(')
    (before : List Pending) (word : String) (stack : List Frame) (depth : Nat) :
    (machine config).move ⟨.name before word, stack, depth⟩ lexeme =
      .shift ⟨.opened before word, stack, depth⟩ := by
  change atName config before word stack depth lexeme = _
  rw [atName, h]
  rfl

/-- A parenthesis right behind the one that opens a call ends the call. -/
theorem move_opened_close {lexeme : Lexeme} (h : lexeme.token = .character ')')
    (before : List Pending) (callee : String) (stack : List Frame) (depth : Nat) :
    (machine config).move ⟨.opened before callee, stack, depth⟩ lexeme =
      .shift ⟨.operator before (.call callee []), stack, depth⟩ := by
  change atOpened config before callee stack depth lexeme = _
  rw [atOpened, h]
  rfl

/-- A token behind the parenthesis of a call that does not close it is the beginning of a first
argument. -/
theorem move_opened {lexeme : Lexeme} (h : lexeme.token ≠ .character ')')
    (before : List Pending) (callee : String) (stack : List Frame) (depth : Nat) :
    (machine config).move ⟨.opened before callee, stack, depth⟩ lexeme =
      (machine config).move ⟨.start, .argument before callee [] :: stack, depth⟩ lexeme := by
  change atOpened config before callee stack depth lexeme = _
  unfold atOpened
  split
  · next hclosing => exact absurd hclosing h
  · rfl

/-- A parenthesis ends the expression in a group. -/
theorem atEnd_group_close {lexeme : Lexeme} (h : lexeme.token = .character ')') (tree : Expr)
    (before : List Pending) (stack : List Frame) (depth : Nat) :
    atEnd tree (.group before :: stack) depth lexeme =
      .shift ⟨.operator before tree, stack, depth⟩ := by
  rw [atEnd, h]
  rfl

/-- A parenthesis ends the last argument. -/
theorem atEnd_argument_close {lexeme : Lexeme} (h : lexeme.token = .character ')') (tree : Expr)
    (before : List Pending) (callee : String) (done : List Expr) (stack : List Frame)
    (depth : Nat) :
    atEnd tree (.argument before callee done :: stack) depth lexeme =
      .shift ⟨.operator before (.call callee (tree :: done).reverse), stack, depth⟩ := by
  rw [atEnd, h]
  rfl

/-- A comma ends an argument, and another one begins. -/
theorem atEnd_argument_comma {lexeme : Lexeme} (h : lexeme.token = .character ',') (tree : Expr)
    (before : List Pending) (callee : String) (done : List Expr) (stack : List Frame)
    (depth : Nat) :
    atEnd tree (.argument before callee done :: stack) depth lexeme =
      .shift ⟨.start, .argument before callee (tree :: done) :: stack, depth⟩ := by
  rw [atEnd, h]
  rfl

/-- Behind an operand the tree of the expression is that of what is pending and the operand. -/
theorem ends_behind {before : List Pending} {tree whole : Expr}
    (h : complete before tree [] = whole) (bare : Bool) (stack : List Frame) (depth : Nat) :
    Ends config ⟨behind before tree bare, stack, depth + 1⟩ whole bare stack depth := by
  intro lexeme hoperator hname
  change move config _ lexeme = _
  rw [move_behind hname, atOperator, hoperator]
  dsimp only
  rw [h, Nat.add_sub_cancel]

/-- At the limit no expression begins. -/
theorem move_start_of_le {stack : List Frame} {depth : Nat} (h : config.maxDepth ≤ depth)
    (lexeme : Lexeme) :
    (machine config).move ⟨.start, stack, depth⟩ lexeme =
      .stop (.error (.nestingTooDeep config.maxDepth lexeme.position)) :=
  if_pos h

end ExprReader

namespace Grammar

open ExprReader

variable {config : Config}

/-- Whether a token begins an operand. -/
inductive BeginsOperand : Token → Prop where
  /-- A numeral is an operand. -/
  | number (value : Double) : BeginsOperand (.number value)
  /-- A name begins a variable or a call. -/
  | name (word : String) : BeginsOperand (.identifier word)
  /-- A parenthesis begins a group. -/
  | opening : BeginsOperand (.character '(')

/-- An operand has a first token. -/
theorem Primary.exists_tokens (primary : Primary) :
    ∃ token rest, primary.tokens = token :: rest ∧ BeginsOperand token := by
  cases primary with
  | number value => exact ⟨.number value, _, rfl, .number value⟩
  | name word => exact ⟨.identifier word, _, rfl, .name word⟩
  | call callee arguments => exact ⟨.identifier callee, _, rfl, .name callee⟩
  | group inner => exact ⟨.character '(', _, rfl, .opening⟩

/-- An expression begins as its first operand does. -/
theorem Phrase.exists_tokens (phrase : Phrase) :
    ∃ token rest, phrase.tokens = token :: rest ∧ BeginsOperand token := by
  obtain ⟨first, tail⟩ := phrase
  obtain ⟨token, rest, htokens, hbegins⟩ := first.exists_tokens
  exact ⟨token, rest ++ tail.tokens, by rw [tokens, htokens, List.cons_append], hbegins⟩

/-- An expression is not written with nothing. -/
theorem Phrase.tokens_ne_nil (phrase : Phrase) : phrase.tokens ≠ [] := by
  obtain ⟨token, rest, htokens, _⟩ := phrase.exists_tokens
  rw [htokens]
  exact List.cons_ne_nil _ _

/-- Behind the parenthesis of a call a first argument begins as any expression does. -/
theorem Reads.opened {before : List Pending} {callee : String} {stack : List Frame} {depth : Nat}
    {token : Token} {rest : List Token} {fits : Prop} {next : State}
    (h : Reads config ⟨.start, .argument before callee [] :: stack, depth⟩ (token :: rest) fits
      next) (hne : token ≠ .character ')') :
    Reads config ⟨.opened before callee, stack, depth⟩ (token :: rest) fits next := by
  intro lexemes hlexemes
  have hreads := h lexemes hlexemes
  obtain ⟨lexeme, others, rfl, rfl, hothers⟩ := List.map_eq_cons_iff.1 hlexemes
  rw [Machine.moves_cons, move_opened hne]
  exact hreads

/-- Below the limit an expression is read as its operands and operators are. -/
theorem Reads.start_of_lt {stack : List Frame} {depth : Nat} (hlt : depth < config.maxDepth)
    {tokens : List Token} {fits : Prop} {next : State}
    (h : Reads config ⟨.operand [], stack, depth + 1⟩ tokens fits next) (hne : tokens ≠ []) :
    Reads config ⟨.start, stack, depth⟩ tokens fits next := by
  intro lexemes hlexemes
  have hlexemes' : lexemes ≠ [] := by
    rintro rfl
    exact hne hlexemes.symm
  rw [moves_start hlt hlexemes']
  exact h lexemes hlexemes

/-- At the limit no expression is read. -/
theorem Reads.start_of_le {stack : List Frame} {depth : Nat} (hle : config.maxDepth ≤ depth)
    {tokens : List Token} (hne : tokens ≠ []) (next : State) :
    Reads config ⟨.start, stack, depth⟩ tokens False next := by
  intro lexemes hlexemes
  refine ⟨False.elim, fun _ => ?_⟩
  obtain ⟨token, rest, rfl⟩ := List.exists_cons_of_ne_nil hne
  obtain ⟨lexeme, others, rfl, _, _⟩ := List.map_eq_cons_iff.1 hlexemes
  exact ⟨lexeme.position, Machine.moves_cons_of_stop (move_start_of_le hle lexeme) others⟩

mutual

/-- Where an operand is due, the tokens of one are read if no expression in it nests too deep. -/
theorem Primary.reads (hkeeps : config.operators.KeepsPunctuation) (primary : Primary)
    (hvalid : primary.Valid config.operators) (before : List Pending) (stack : List Frame)
    {depth : Nat} (hdepth : depth ≤ config.maxDepth) :
    Reads config ⟨.operand before, stack, depth⟩ primary.tokens
      (depth + primary.nesting ≤ config.maxDepth)
      ⟨behind before (primary.tree config.operators) primary.bare, stack, depth⟩ := by
  cases primary with
  | number value =>
    have hreads : Reads config ⟨.operand before, stack, depth⟩ [.number value] True
        ⟨.operator before (.number value), stack, depth⟩ :=
      .cons (fun _ htoken => move_operand_number htoken before stack depth) (.nil _)
    exact hreads.congr (iff_of_true trivial hdepth)
  | name word =>
    have hreads : Reads config ⟨.operand before, stack, depth⟩ [.identifier word] True
        ⟨.name before word, stack, depth⟩ :=
      .cons (fun _ htoken => move_operand_name htoken before stack depth) (.nil _)
    exact hreads.congr (iff_of_true trivial hdepth)
  | call callee arguments =>
    refine .cons (fun _ htoken => move_operand_name htoken before stack depth)
      (.cons (fun _ htoken => move_name_open htoken before callee stack depth) ?_)
    cases arguments with
    | none =>
      have hreads : Reads config ⟨.opened before callee, stack, depth⟩ [.character ')'] True
          ⟨.operator before (.call callee []), stack, depth⟩ :=
        .cons (fun _ htoken => move_opened_close htoken before callee stack depth) (.nil _)
      exact hreads.congr (iff_of_true trivial hdepth)
    | more first rest =>
      obtain ⟨state, hfirst, hends⟩ := first.reads hkeeps hvalid.1
        (.argument before callee [] :: stack) hdepth
      have hrest := rest.reads hkeeps hvalid.2 before callee [] stack hdepth hends
      obtain ⟨token, others, htokens, hbegins⟩ := first.exists_tokens
      have hne : token ≠ .character ')' := by
        rintro rfl
        cases hbegins
      have hall := hfirst.append hrest
      rw [htokens, List.cons_append] at hall
      have hopened := Reads.opened hall hne
      rw [← List.cons_append, ← htokens, ← List.append_assoc] at hopened
      refine hopened.congr ?_
      change _ ↔ depth + max first.nesting rest.nesting ≤ config.maxDepth
      omega
  | group inner =>
    obtain ⟨state, hinner, hends⟩ := inner.reads hkeeps hvalid (.group before :: stack) hdepth
    have hclose := hends.move hkeeps.closing (by decide) fun lexeme htoken =>
      atEnd_group_close htoken (inner.tree config.operators) before stack depth
    have hall := (hinner.append (.cons hclose (.nil _))).congr (and_iff_left trivial)
    exact .cons (fun _ htoken => move_operand_open htoken before stack depth) hall

/-- Where an expression may begin, the tokens of one are read if it does not nest too deep. -/
theorem Phrase.reads (hkeeps : config.operators.KeepsPunctuation) (phrase : Phrase)
    (hvalid : phrase.Valid config.operators) (stack : List Frame) {depth : Nat}
    (hdepth : depth ≤ config.maxDepth) :
    ∃ state, Reads config ⟨.start, stack, depth⟩ phrase.tokens
        (depth + phrase.nesting ≤ config.maxDepth) state ∧
      Ends config state (phrase.tree config.operators) phrase.bare stack depth := by
  obtain ⟨first, tail⟩ := phrase
  by_cases hlt : depth < config.maxDepth
  · have hfirst := first.reads hkeeps hvalid.1 [] stack (Nat.succ_le_of_lt hlt)
    obtain ⟨before, tree, htail, hcomplete⟩ := tail.reads hkeeps hvalid.2 []
      (first.tree config.operators) first.bare stack (Nat.succ_le_of_lt hlt)
    have htree : complete before tree [] = Link.grouping (first.tree config.operators)
        (tail.links config.operators) := by
      rw [hcomplete, complete, Expr.ofChain_eq_grouping (tail.links_nonneg hvalid.2)]
    refine ⟨_, ?_, ends_behind htree (tail.bare first.bare) stack depth⟩
    refine (Reads.start_of_lt hlt (hfirst.append htail)
      (Phrase.tokens_ne_nil (.chain first tail))).congr ?_
    change _ ↔ depth + (1 + max first.nesting tail.nesting) ≤ config.maxDepth
    omega
  · -- At the limit nothing is read, so that any state in which the expression ends will do.
    have hchain : complete [] ((Phrase.chain first tail).tree config.operators) [] = _ :=
      Expr.ofChain_eq_grouping (by simp) _
    rw [Link.grouping_nil] at hchain
    refine ⟨_, ?_, ends_behind hchain (tail.bare first.bare) stack depth⟩
    refine (Reads.start_of_le (Nat.not_lt.1 hlt)
      (Phrase.tokens_ne_nil (.chain first tail)) _).congr (iff_of_false not_false ?_)
    change ¬depth + (1 + max first.nesting tail.nesting) ≤ config.maxDepth
    omega

/-- Behind an operand, operators and operands are read if no expression in them nests too deep. -/
theorem Tail.reads (hkeeps : config.operators.KeepsPunctuation) (tail : Tail)
    (hvalid : tail.Valid config.operators) (before : List Pending) (tree : Expr) (bare : Bool)
    (stack : List Frame) {depth : Nat} (hdepth : depth ≤ config.maxDepth) :
    ∃ before' tree',
      Reads config ⟨behind before tree bare, stack, depth⟩ tail.tokens
          (depth + tail.nesting ≤ config.maxDepth)
          ⟨behind before' tree' (tail.bare bare), stack, depth⟩ ∧
        complete before' tree' [] = complete before tree (tail.links config.operators) := by
  cases tail with
  | done => exact ⟨before, tree, (Reads.nil _).congr (iff_of_true trivial hdepth), rfl⟩
  | more operator operand rest =>
    obtain ⟨⟨precedence, hprecedence⟩, hoperand, hrest⟩ := hvalid
    have hmove : ∀ lexeme : Lexeme, lexeme.token = .character operator →
        (machine config).move ⟨behind before tree bare, stack, depth⟩ lexeme =
          .shift ⟨.operand (⟨tree, operator, precedence⟩ :: before), stack, depth⟩ := by
      intro lexeme htoken
      apply move_behind_operator hkeeps.opening
      rw [htoken, Config.operator?, hprecedence]
      rfl
    have hfirst := operand.reads hkeeps hoperand (⟨tree, operator, precedence⟩ :: before) stack
      hdepth
    obtain ⟨before', tree', hreads, hcomplete⟩ := rest.reads hkeeps hrest
      (⟨tree, operator, precedence⟩ :: before) (operand.tree config.operators) operand.bare stack
      hdepth
    refine ⟨before', tree', (Reads.cons hmove (hfirst.append hreads)).congr ?_, ?_⟩
    · change _ ↔ depth + max operand.nesting rest.nesting ≤ config.maxDepth
      omega
    · rw [hcomplete, complete, Tail.links, hprecedence, Option.getD_some]

/-- Behind an argument, further arguments and the closing parenthesis are read if no expression in
them nests too deep. -/
theorem Arguments.reads (hkeeps : config.operators.KeepsPunctuation) (arguments : Arguments)
    (hvalid : arguments.Valid config.operators) (before : List Pending) (callee : String)
    (done : List Expr) (stack : List Frame) {depth : Nat} (hdepth : depth ≤ config.maxDepth)
    {state : State} {last : Expr} {bare : Bool}
    (hends : Ends config state last bare (.argument before callee done :: stack) depth) :
    Reads config state (arguments.furtherTokens ++ [.character ')'])
      (depth + arguments.nesting ≤ config.maxDepth)
      ⟨.operator before (.call callee (done.reverse ++ last :: arguments.trees config.operators)),
        stack, depth⟩ := by
  cases arguments with
  | none =>
    have hclose := hends.move hkeeps.closing (by decide) fun lexeme htoken =>
      atEnd_argument_close htoken last before callee done stack depth
    rw [List.reverse_cons] at hclose
    exact (Reads.cons hclose (Reads.nil _)).congr (iff_of_true trivial hdepth)
  | more first rest =>
    have hcomma := hends.move hkeeps.comma (by decide) fun lexeme htoken =>
      atEnd_argument_comma htoken last before callee done stack depth
    obtain ⟨state', hfirst, hends'⟩ := first.reads hkeeps hvalid.1
      (.argument before callee (last :: done) :: stack) hdepth
    have hrest := rest.reads hkeeps hvalid.2 before callee (last :: done) stack hdepth hends'
    have hall := Reads.cons hcomma (hfirst.append hrest)
    rw [List.reverse_cons, List.append_assoc, List.singleton_append, ← List.append_assoc] at hall
    refine hall.congr ?_
    change _ ↔ depth + max first.nesting rest.nesting ≤ config.maxDepth
    omega

end

end Grammar

end Kaleidoscope
