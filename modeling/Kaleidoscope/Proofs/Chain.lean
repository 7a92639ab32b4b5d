import Mathlib
import Kaleidoscope.Form.Reading
import Kaleidoscope.Proofs.Grouping
import Kaleidoscope.Proofs.Surroundings

/-!
# Reading a chain

Operands with operators between them, given as tokens, are read to the tree of the chain that they
are. An operand is any run of tokens that the reader uses up from where one is due to its end. The
main statement holds for all operator tables in which a parenthesis is no operator.
-/

namespace Kaleidoscope

namespace OperatorTable

/-- A precedence that makes an operator is positive. -/
theorem precedence?_pos {table : OperatorTable} {c : Char} {precedence : Int32}
    (h : table.precedence? c = some precedence) : 0 < precedence :=
  of_decide_eq_true (Option.filter_eq_some_iff.1 h).2

end OperatorTable

/-- A token that is an operator is a character with a precedence. -/
theorem Config.operator?_eq_some {config : Config} {token : Token} {operator : Char}
    {precedence : Int32} (h : config.operator? token = some (operator, precedence)) :
    token = .character operator ∧ config.operators.precedence? operator = some precedence := by
  unfold operator? at h
  split at h
  · obtain ⟨_, hprecedence, heq⟩ := Option.map_eq_some_iff.1 h
    cases heq
    exact ⟨rfl, hprecedence⟩
  · cases h

/-- A character that is no operator of the table makes a token that is none. -/
theorem Config.operator?_character {config : Config} {c : Char}
    (h : config.operators.precedence? c = none) : config.operator? (.character c) = none := by
  rw [operator?, h]
  rfl

namespace ExprReader

/-- Where the reader stands behind an operand. A bare name may still turn out to be that of a
function. -/
def behind (before : List Pending) (tree : Expr) (bare : Bool) : Phase :=
  match bare, tree with
  | true, .reference name => .name before name
  | _, _ => .operator before tree

/-- What follows an operand is taken for what may follow an operand, unless it is a parenthesis
behind a bare name. -/
theorem move_behind {config : Config} {tree : Expr} {bare : Bool} {lexeme : Lexeme}
    (h : bare = true → lexeme.token ≠ .character '(') (before : List Pending)
    (stack : List Frame) (depth : Nat) :
    move config ⟨behind before tree bare, stack, depth⟩ lexeme =
      atOperator config before tree stack depth lexeme := by
  unfold behind
  split
  · next word =>
    change atName config before word stack depth lexeme = _
    unfold atName
    split
    · next htoken => exact absurd htoken (h rfl)
    · rfl
  · rfl

/-- An operator behind an operand is used up, and the operand is pending. -/
theorem move_behind_operator {config : Config} (hopen : config.operators.precedence? '(' = none)
    {lexeme : Lexeme} {operator : Char} {precedence : Int32}
    (h : config.operator? lexeme.token = some (operator, precedence)) (before : List Pending)
    (tree : Expr) (bare : Bool) (stack : List Frame) (depth : Nat) :
    (machine config).move ⟨behind before tree bare, stack, depth⟩ lexeme =
      .shift ⟨.operand (⟨tree, operator, precedence⟩ :: before), stack, depth⟩ := by
  change move config _ lexeme = _
  rw [move_behind, atOperator, h]
  intro _ htoken
  rw [htoken, Config.operator?_character hopen] at h
  cases h

/-- Whether some tokens are a bare name. -/
def IsBare (lexemes : List Lexeme) : Prop :=
  ∃ lexeme name, lexemes = [lexeme] ∧ lexeme.token = .identifier name

/-- Whether some tokens are an operand with a given tree, for the reader of an expression that is
the last of a number of open ones. -/
inductive IsOperand (config : Config) (depth : Nat) : List Lexeme → Expr → Prop where
  /-- A bare name is an operand. -/
  | name {lexeme : Lexeme} {name : String} (h : lexeme.token = .identifier name) :
    IsOperand config depth [lexeme] (.reference name)
  /-- All that is used up from where an operand is due to where an operator may stand is one. -/
  | closed {lexemes : List Lexeme} {tree : Expr}
    (h : (machine config).moves ⟨.operand [], [], depth⟩ lexemes =
      .shift ⟨.operator [] tree, [], depth⟩) : IsOperand config depth lexemes tree

/-- An operand is read alike wherever one is due. -/
theorem IsOperand.moves {config : Config} {depth : Nat} {lexemes : List Lexeme} {tree : Expr}
    (h : IsOperand config depth lexemes tree) :
    ∃ bare, (bare = true → IsBare lexemes) ∧ ∀ before stack,
      (machine config).moves ⟨.operand before, stack, depth⟩ lexemes =
        .shift ⟨behind before tree bare, stack, depth⟩ := by
  cases h with
  | @name lexeme word htoken =>
    refine ⟨true, fun _ => ⟨lexeme, word, rfl, htoken⟩, fun before stack => ?_⟩
    have hmove : (machine config).move ⟨.operand before, stack, depth⟩ lexeme =
        .shift ⟨.name before word, stack, depth⟩ := by
      change atOperand before stack depth lexeme = _
      rw [atOperand, htoken]
    exact Machine.moves_cons_of_shift hmove []
  | closed hmoves =>
    refine ⟨false, Bool.noConfusion, fun before stack => ?_⟩
    exact moves_over hmoves (by simp [State.Begun]) before stack

/-- An operand has a first token. -/
theorem IsOperand.ne_nil {config : Config} {depth : Nat} {lexemes : List Lexeme} {tree : Expr}
    (h : IsOperand config depth lexemes tree) : lexemes ≠ [] := by
  rintro rfl
  cases h with
  | closed hmoves => cases hmoves

/-- Below the limit an expression begins with its first operand. -/
theorem moves_start {config : Config} {stack : List Frame} {depth : Nat}
    (hdepth : depth < config.maxDepth) {lexemes : List Lexeme} (hne : lexemes ≠ []) :
    (machine config).moves ⟨.start, stack, depth⟩ lexemes =
      (machine config).moves ⟨.operand [], stack, depth + 1⟩ lexemes := by
  cases lexemes with
  | nil => exact absurd rfl hne
  | cons lexeme lexemes =>
    have hmove : (machine config).move ⟨.start, stack, depth⟩ lexeme =
        (machine config).move ⟨.operand [], stack, depth + 1⟩ lexeme :=
      if_neg (Nat.not_le.2 hdepth)
    rw [Machine.moves_cons, Machine.moves_cons, hmove]

/-- An operator and the operand behind it, as tokens and as a link. -/
structure Segment where
  /-- The token of the operator. -/
  operator : Lexeme
  /-- The tokens of the operand. -/
  operand : List Lexeme
  /-- What they are in a chain. -/
  link : Link

namespace Segment

/-- The tokens of a segment. -/
def lexemes (segment : Segment) : List Lexeme := segment.operator :: segment.operand

/-- Whether the tokens of a segment are what its link says. -/
structure Reads (config : Config) (depth : Nat) (segment : Segment) : Prop where
  /-- The first token is the operator. -/
  operator : config.operator? segment.operator.token =
    some (segment.link.operator, segment.link.precedence)
  /-- The others are the operand. -/
  operand : IsOperand config depth segment.operand segment.link.operand

/-- The tokens of the last operand of a chain. -/
def lastOperand (first : List Lexeme) (segments : List Segment) : List Lexeme :=
  (segments.map operand).getLastD first

end Segment

/-- Segments are used up behind an operand, and what is pending then completes to the same tree as
the operand and the links do. -/
theorem moves_segments {config : Config} (hopen : config.operators.precedence? '(' = none)
    {depth : Nat} {segments : List Segment}
    (hsegments : ∀ segment ∈ segments, segment.Reads config depth) {first : List Lexeme}
    {bare : Bool} (hbare : bare = true → IsBare first) (tree : Expr) (before : List Pending)
    (stack : List Frame) :
    ∃ before' tree' bare',
      (machine config).moves ⟨behind before tree bare, stack, depth⟩
          (segments.flatMap Segment.lexemes) = .shift ⟨behind before' tree' bare', stack, depth⟩ ∧
        complete before' tree' [] = complete before tree (segments.map Segment.link) ∧
        (bare' = true → IsBare (Segment.lastOperand first segments)) := by
  induction segments generalizing first tree bare before with
  | nil => exact ⟨before, tree, bare, rfl, rfl, hbare⟩
  | cons segment segments ih =>
    have hreads := hsegments segment List.mem_cons_self
    obtain ⟨bare₁, hbare₁, hoperand⟩ := hreads.operand.moves
    obtain ⟨before', tree', bare', hmoves, hcomplete, hlast⟩ :=
      ih (fun other hmem => hsegments other (List.mem_cons_of_mem _ hmem)) hbare₁
        segment.link.operand (⟨tree, segment.link.operator, segment.link.precedence⟩ :: before)
    refine ⟨before', tree', bare', ?_, hcomplete, ?_⟩
    · rw [List.flatMap_cons, Segment.lexemes, List.cons_append,
        Machine.moves_cons_of_shift (move_behind_operator hopen hreads.operator ..),
        Machine.moves_append_of_shift (hoperand _ _)]
      exact hmoves
    · intro htrue
      have hbare' := hlast htrue
      rw [Segment.lastOperand, List.map_cons, List.getLastD_cons]
      exact hbare'

/-- Behind the tokens of a chain the reader takes any token that continues no operand for the end of
the expression, whose tree is that of the chain. -/
theorem moves_chain {config : Config} (hopen : config.operators.precedence? '(' = none)
    {depth : Nat} (hdepth : depth < config.maxDepth) {first : List Lexeme} {tree : Expr}
    (hfirst : IsOperand config (depth + 1) first tree) {segments : List Segment}
    (hsegments : ∀ segment ∈ segments, segment.Reads config (depth + 1)) (stack : List Frame) :
    ∃ state,
      (machine config).moves ⟨.start, stack, depth⟩
          (first ++ segments.flatMap Segment.lexemes) = .shift state ∧
        ∀ follow : Lexeme, config.operator? follow.token = none →
          (IsBare (Segment.lastOperand first segments) → follow.token ≠ .character '(') →
          (machine config).move state follow =
            atEnd (Link.grouping tree (segments.map Segment.link)) stack depth follow := by
  obtain ⟨bare, hbare, hoperand⟩ := hfirst.moves
  obtain ⟨before', tree', bare', hmoves, hcomplete, hlast⟩ :=
    moves_segments hopen hsegments hbare tree [] stack
  refine ⟨⟨behind before' tree' bare', stack, depth + 1⟩, ?_, fun follow hfollow hname => ?_⟩
  · rw [moves_start hdepth (List.append_ne_nil_of_left_ne_nil hfirst.ne_nil _),
      Machine.moves_append_of_shift (hoperand [] stack)]
    exact hmoves
  · have hpositive : ∀ link ∈ segments.map Segment.link, 0 ≤ link.precedence := by
      intro link hmem
      obtain ⟨segment, hsegment, rfl⟩ := List.mem_map.1 hmem
      have hoperator := Config.operator?_eq_some (hsegments segment hsegment).operator
      exact Int32.le_of_lt (OperatorTable.precedence?_pos hoperator.2)
    change move config _ follow = _
    rw [move_behind (fun htrue => hname (hlast htrue)), atOperator, hfollow]
    dsimp only
    rw [hcomplete, complete, Expr.ofChain_eq_grouping hpositive, Nat.add_sub_cancel]

/-- Operands with operators between them are read whole, wherever an expression may begin, and give
the tree whose root is the operator that binds least, the last one of several. The token behind them
stays: inside another expression it is left to what surrounds the chain, and a reading of its own
stops in front of it. -/
theorem read_chain {config : Config} (hopen : config.operators.precedence? '(' = none)
    {depth : Nat} (hdepth : depth < config.maxDepth) {first : List Lexeme} {tree : Expr}
    (hfirst : IsOperand config (depth + 1) first tree) {segments : List Segment}
    (hsegments : ∀ segment ∈ segments, segment.Reads config (depth + 1)) :
    (∀ stack, ∃ state,
      (machine config).moves ⟨.start, stack, depth⟩
          (first ++ segments.flatMap Segment.lexemes) = .shift state ∧
        ∀ follow : Lexeme, config.operator? follow.token = none →
          (IsBare (Segment.lastOperand first segments) → follow.token ≠ .character '(') →
          (machine config).move state follow =
            atEnd (Link.grouping tree (segments.map Segment.link)) stack depth follow) ∧
      (depth = 0 → ∀ {σ : Type} [CharStream σ] {feed rest : Feed σ},
        feed.Leads (first ++ segments.flatMap Segment.lexemes) rest →
        config.operator? rest.lookahead.token = none →
        (IsBare (Segment.lastOperand first segments) → rest.lookahead.token ≠ .character '(') →
        feed.readExpr config =
          ⟨.ok (Link.grouping tree (segments.map Segment.link)), rest⟩) ∧
      Link.Spans (Link.grouping tree (segments.map Segment.link)) tree
        (segments.map Segment.link) ∧
      ∀ precedence, (∀ segment ∈ segments, segment.link.precedence = precedence) →
        Link.grouping tree (segments.map Segment.link) =
          (segments.map Segment.link).foldl
            (fun left link => .binary link.operator left link.operand) tree := by
  refine ⟨moves_chain hopen hdepth hfirst hsegments, ?_, Link.spans_grouping _ _, ?_⟩
  · rintro rfl σ _ feed rest hleads hfollow hname
    obtain ⟨state, hmoves, hend⟩ := moves_chain hopen hdepth hfirst hsegments []
    have hstop : (machine config).move state rest.lookahead =
        .stop (.ok (Link.grouping tree (segments.map Segment.link))) :=
      hend rest.lookahead hfollow hname
    have hstart : feed.readExpr config = rest.drive (machine config) state :=
      Feed.drive_of_leads hleads hmoves
    rw [hstart, Feed.drive_of_stop hstop]
  · intro precedence hequal
    have hlinks : ∀ link ∈ segments.map Segment.link, link.precedence = precedence := by
      intro link hmem
      obtain ⟨segment, hsegment, rfl⟩ := List.mem_map.1 hmem
      exact hequal segment hsegment
    exact Link.grouping_of_equal hlinks tree

/-- The text `a - b % g() * c - d;` is read to `((a - ((b % g()) * c)) - d)` where `%` and `*` bind
equally, as tightly as an operator can. -/
theorem read_chain_of_five :
    let config : Config := ⟨⟨[('%', 2147483647), ('*', 2147483647), ('-', 1)]⟩, 1⟩
    let outcome := (Feed.start (Text.ofString "a - b % g() * c - d;")).readExpr config
    outcome.result = .ok (.binary '-' (.binary '-' (.reference "a")
        (.binary '*' (.binary '%' (.reference "b") (.call "g" [])) (.reference "c")))
        (.reference "d")) ∧
      outcome.feed.lookahead.token = .character ';' := by
  intro config outcome
  let first : List Lexeme := [⟨.identifier "a", ⟨1, 1⟩⟩]
  let segments : List Segment :=
    [⟨⟨.character '-', ⟨1, 3⟩⟩, [⟨.identifier "b", ⟨1, 5⟩⟩], ⟨'-', 1, .reference "b"⟩⟩,
      ⟨⟨.character '%', ⟨1, 7⟩⟩,
        [⟨.identifier "g", ⟨1, 9⟩⟩, ⟨.character '(', ⟨1, 10⟩⟩, ⟨.character ')', ⟨1, 11⟩⟩],
        ⟨'%', 2147483647, .call "g" []⟩⟩,
      ⟨⟨.character '*', ⟨1, 13⟩⟩, [⟨.identifier "c", ⟨1, 15⟩⟩],
        ⟨'*', 2147483647, .reference "c"⟩⟩,
      ⟨⟨.character '-', ⟨1, 17⟩⟩, [⟨.identifier "d", ⟨1, 19⟩⟩], ⟨'-', 1, .reference "d"⟩⟩]
  have htext : Lexeme.ofString "a - b % g() * c - d;" =
      (first ++ segments.flatMap Segment.lexemes) ++ [⟨.character ';', ⟨1, 20⟩⟩] := by cbv
  have hfirst : IsOperand config 1 first (.reference "a") := .name rfl
  have hsegments : ∀ segment ∈ segments, segment.Reads config 1 := by
    intro segment hmem
    simp only [segments, List.mem_cons, List.not_mem_nil, or_false] at hmem
    rcases hmem with rfl | rfl | rfl | rfl
    · exact ⟨rfl, .name rfl⟩
    · exact ⟨rfl, .closed rfl⟩
    · exact ⟨rfl, .name rfl⟩
    · exact ⟨rfl, .name rfl⟩
  obtain ⟨last, hleads, _⟩ := Feed.exists_leads_ofString "a - b % g() * c - d;"
  rw [htext] at hleads
  obtain ⟨rest, hchain, hrest⟩ := hleads.of_append
  obtain ⟨hlookahead, _⟩ := hrest.cons_inv
  have hfollow : config.operator? rest.lookahead.token = none := by
    rw [hlookahead]
    rfl
  have hname : rest.lookahead.token ≠ .character '(' := by
    rw [hlookahead]
    simp only [ne_eq, Token.character.injEq]
    decide
  have hread := (@read_chain config rfl 0 Nat.one_pos first _ hfirst segments hsegments).2.1 rfl
    hchain hfollow fun _ => hname
  have houtcome : outcome = ⟨.ok _, rest⟩ := hread
  rw [houtcome, hlookahead]
  exact ⟨by cbv, rfl⟩

end ExprReader

end Kaleidoscope
