import Kaleidoscope.Proofs.Descent.Basic
import Kaleidoscope.Proofs.Grammar.Reading

/-!
# Descent and machine

The machine that reads expressions has no calls: it keeps what surrounds an expression on a stack of
its own, and groups operands only at the end of an expression. Here it is proved to do the same as
the calls do. A call takes the machine from the state in front of what it reads to the state behind
it, over every stack, and where the call fails the machine stops. The main statement says that the
two have the same results and leave the same tokens.
-/

namespace Kaleidoscope

namespace Link

variable {minimum : Int32} {left : Expr} {link : Link} {links : List Link}

/-- Nothing is grouped where nothing binds as tightly as the minimum. -/
theorem climb_loose (h : ∀ link ∈ links.head?, link.precedence < minimum) :
    (climb minimum left links).expr = left ∧ (climb minimum left links).rest = links := by
  cases links with
  | nil =>
    rw [climb]
    exact ⟨rfl, rfl⟩
  | cons link links =>
    rw [climb, if_pos (h link rfl)]
    exact ⟨rfl, rfl⟩

/-- A link takes its right operand, and what follows takes the result. -/
theorem climb_cons (hbound : ¬link.precedence < minimum) {right : Grouped links}
    (hright : right = if tighterThan link.precedence links then
        climb (link.precedence + 1) link.operand links
      else ⟨link.operand, links, Nat.le_refl _⟩) :
    (climb minimum left (link :: links)).expr =
        (climb minimum (.binary link.operator left right.expr) right.rest).expr ∧
      (climb minimum left (link :: links)).rest =
        (climb minimum (.binary link.operator left right.expr) right.rest).rest := by
  subst hright
  rw [climb, if_neg hbound]
  exact ⟨rfl, rfl⟩

end Link

namespace ExprReader

variable {config : Config}

/-- Whether some links begin with the operator that a token is, if it is one. -/
def Heads (config : Config) (token : Token) : List Link → Prop
  | [] => config.operator? token = none
  | link :: _ => config.operator? token = some (link.operator, link.precedence)

/-- The first of the links binds as tightly as the token does. -/
theorem Heads.tokenPrecedence_eq {token : Token} {link : Link} {links : List Link}
    (h : Heads config token (link :: links)) : config.tokenPrecedence token = link.precedence := by
  have hoperator : config.operator? token = some (link.operator, link.precedence) := h
  rw [Config.tokenPrecedence, hoperator]

/-- Links that a token heads bind tighter than an operator if and only if the token does. -/
theorem Heads.tighterThan_iff {token : Token} {links : List Link} (h : Heads config token links)
    {precedence : Int32} (hpos : 0 ≤ precedence) :
    Link.tighterThan precedence links = true ↔ precedence < config.tokenPrecedence token := by
  cases links with
  | nil =>
    have hnone : config.operator? token = none := h
    rw [Config.tokenPrecedence, hnone]
    refine iff_of_false Bool.false_ne_true ?_
    exact Int32.not_lt.2 (Int32.le_trans (by decide) hpos)
  | cons link links => rw [h.tokenPrecedence_eq, Link.tighterThan, decide_eq_true_eq]

/-- A token that binds at all is an operator. -/
theorem exists_operator_of_not_lt {token : Token} {minimum : Int32} (hminimum : 0 ≤ minimum)
    (h : ¬config.tokenPrecedence token < minimum) :
    ∃ c, token = .character c ∧
      config.operator? token = some (c, config.tokenPrecedence token) ∧
      0 < config.tokenPrecedence token := by
  rw [Config.tokenPrecedence] at h ⊢
  cases hoperator : config.operator? token with
  | none =>
    rw [hoperator] at h
    exact absurd (Int32.lt_of_lt_of_le (by decide) hminimum) h
  | some entry =>
    obtain ⟨operator, precedence⟩ := entry
    obtain ⟨htoken, hprecedence⟩ := Config.operator?_eq_some hoperator
    exact ⟨operator, htoken, rfl, OperatorTable.precedence?_pos hprecedence⟩

/-- A character that binds at all is an operator. -/
theorem operator?_of_not_lt {token : Token} {c : Char} (htoken : token = .character c)
    {minimum : Int32} (hminimum : 0 ≤ minimum) (h : ¬config.tokenPrecedence token < minimum) :
    config.operator? token = some (c, config.tokenPrecedence token) ∧
      0 < config.tokenPrecedence token := by
  obtain ⟨d, hd, hoperator, hpos⟩ := exists_operator_of_not_lt hminimum h
  rw [htoken] at hd
  cases hd
  exact ⟨hoperator, hpos⟩

/-- The integer behind a precedence that something exceeds is positive. -/
theorem nonneg_succ {precedence other : Int32} (hpos : 0 < precedence)
    (h : precedence < other) : 0 ≤ precedence + 1 := by
  rw [Int32.le_iff_toInt_le, Link.toInt_succ h]
  have hpos' := Int32.lt_iff_toInt_lt.1 hpos
  omega

/-- A token that binds less than every operator is none. -/
theorem operator?_of_lt {token : Token} (h : config.tokenPrecedence token < 0) :
    config.operator? token = none := by
  rw [Config.tokenPrecedence] at h
  cases hoperator : config.operator? token with
  | none => rfl
  | some entry =>
    obtain ⟨operator, precedence⟩ := entry
    obtain ⟨_, hprecedence⟩ := Config.operator?_eq_some hoperator
    rw [hoperator] at h
    exact absurd (OperatorTable.precedence?_pos hprecedence) (Int32.lt_asymm h)

/-- Where no operator follows, all that counts about what is pending is the tree that it makes. -/
theorem move_operator_congr {before before' : List Pending} {last last' : Expr} {lexeme : Lexeme}
    (hnone : config.operator? lexeme.token = none)
    (h : complete before last [] = complete before' last' []) (stack : List Frame) (depth : Nat) :
    (machine config).move ⟨.operator before last, stack, depth⟩ lexeme =
      (machine config).move ⟨.operator before' last', stack, depth⟩ lexeme := by
  change atOperator config before last stack depth lexeme =
    atOperator config before' last' stack depth lexeme
  rw [atOperator, atOperator, hnone, h]

/-- Without an operator the tree of an operand is the operand. -/
theorem complete_nil (tree : Expr) : complete [] tree [] = tree :=
  (Link.climb_loose (by simp)).1

/-- Behind an expression that is a single operand it ends. -/
theorem move_operator_end {tree : Expr} {lexeme : Lexeme}
    (hnone : config.operator? lexeme.token = none) (stack : List Frame) (depth : Nat) :
    (machine config).move ⟨.operator [] tree, stack, depth + 1⟩ lexeme =
      atEnd tree stack depth lexeme := by
  change atOperator config [] tree stack (depth + 1) lexeme = _
  rw [atOperator, hnone, complete_nil]
  rfl

/-- Below the limit an expression begins with its first operand. -/
theorem move_start_of_lt {depth : Nat} (h : depth < config.maxDepth) (stack : List Frame)
    (lexeme : Lexeme) :
    (machine config).move ⟨.start, stack, depth⟩ lexeme =
      (machine config).move ⟨.operand [], stack, depth + 1⟩ lexeme := if_neg (Nat.not_le.2 h)

/-- An operator makes an operand pending. -/
theorem move_operator_shift {lexeme : Lexeme} {c : Char} {precedence : Int32}
    (h : config.operator? lexeme.token = some (c, precedence)) (before : List Pending)
    (last : Expr) (stack : List Frame) (depth : Nat) :
    (machine config).move ⟨.operator before last, stack, depth⟩ lexeme =
      .shift ⟨.operand (⟨last, c, precedence⟩ :: before), stack, depth⟩ := by
  change atOperator config before last stack depth lexeme = _
  rw [atOperator, h]

/-- A name without a parenthesis behind it is an operand. -/
theorem move_name_end {lexeme : Lexeme} (h : lexeme.token ≠ .character '(')
    (before : List Pending) (name : String) (stack : List Frame) (depth : Nat) :
    (machine config).move ⟨.name before name, stack, depth⟩ lexeme =
      (machine config).move ⟨.operator before (.reference name), stack, depth⟩ lexeme :=
  @move_behind config (.reference name) true lexeme (fun _ => h) before stack depth

/-- A token that is no name, no number and no opening parenthesis is no operand. -/
theorem atOperand_unexpected {lexeme : Lexeme} (hname : ∀ name, lexeme.token ≠ .identifier name)
    (hnumber : ∀ value, lexeme.token ≠ .number value) (hopen : lexeme.token ≠ .character '(')
    (before : List Pending) (stack : List Frame) (depth : Nat) :
    atOperand before stack depth lexeme = .stop (.error (.unexpectedToken lexeme)) := by
  unfold atOperand
  split
  · next htoken => exact absurd htoken (hname _)
  · next htoken => exact absurd htoken (hnumber _)
  · next htoken => exact absurd htoken hopen
  · rfl

/-- A token that is no closing parenthesis does not close a group. -/
theorem atEnd_group_open {lexeme : Lexeme} (h : lexeme.token ≠ .character ')') (tree : Expr)
    (before : List Pending) (stack : List Frame) (depth : Nat) :
    atEnd tree (.group before :: stack) depth lexeme =
      .stop (.error (.expected .groupClose lexeme)) := by
  rw [atEnd]
  split
  · next htoken => exact absurd htoken h
  · rfl

/-- A token that is no closing parenthesis and no comma does not end an argument. -/
theorem atEnd_argument_open {lexeme : Lexeme} (hclose : lexeme.token ≠ .character ')')
    (hcomma : lexeme.token ≠ .character ',') (tree : Expr) (before : List Pending)
    (callee : String) (done : List Expr) (stack : List Frame) (depth : Nat) :
    atEnd tree (.argument before callee done :: stack) depth lexeme =
      .stop (.error (.expected .argumentEnd lexeme)) := by
  rw [atEnd]
  split
  · next htoken => exact absurd htoken hclose
  · next htoken => exact absurd htoken hcomma
  · rfl

end ExprReader

open ExprReader

variable {σ : Type} [CharStream σ]

/-- Whether the machine comes from a state to what a call comes to: where the call fails the machine
stops, and otherwise it goes on in the state that belongs to the tree. -/
def Counted.Drives (config : Config) (start : Counted σ) (state : State) (next : Expr → State)
    (result : Except SyntaxError Expr) (stop : Counted σ) : Prop :=
  start.feed.drive (machine config) state =
    Feed.Outcome.andThen ⟨result, stop.feed⟩ fun tree rest =>
      rest.drive (machine config) (next tree)

/-- What the machine does on the tokens that a call reads. -/
def Job.IsDriven (config : Config) (start : Counted σ) (result : Except SyntaxError Expr)
    (stop : Counted σ) : Job → Prop
  | expr =>
    (∀ stack, start.Drives config ⟨.start, stack, start.depth⟩
      (fun tree => ⟨.operator [] tree, stack, start.depth + 1⟩) result stop) ∧
    ∀ tree, result = .ok tree → config.operator? stop.lookahead.token = none
  | primary =>
    ∀ before stack, start.Drives config ⟨.operand before, stack, start.depth⟩
      (fun tree => ⟨.operator before tree, stack, start.depth⟩) result stop
  | arguments callee done =>
    ∀ before stack,
      start.Drives config ⟨.start, .argument before callee done :: stack, start.depth⟩
        (fun tree => ⟨.operator before tree, stack, start.depth⟩) result stop
  | tail minimum left =>
    0 ≤ minimum →
      ∃ links : List Link,
        (∀ before last stack, ∃ before' last',
          (∀ more, complete before' last' more = complete before last (links ++ more)) ∧
          start.Drives config ⟨.operator before last, stack, start.depth⟩
            (fun _ => ⟨.operator before' last', stack, start.depth⟩) result stop) ∧
        ∀ tree, result = .ok tree →
          config.tokenPrecedence stop.lookahead.token < minimum ∧
          ∀ more, Heads config stop.lookahead.token more →
            Heads config start.lookahead.token (links ++ more) ∧
            (Link.climb minimum left (links ++ more)).expr = tree ∧
            (Link.climb minimum left (links ++ more)).rest = more

namespace Counted

variable {config : Config} {start stop middle : Counted σ} {state state' middleState : State}
  {next next' : Expr → State} {result : Except SyntaxError Expr} {error : SyntaxError}

/-- A token may be used up first. -/
theorem Drives.of_shift (hmove : (machine config).move state start.lookahead = .shift state')
    (h : start.advance.Drives config state' next result stop) :
    start.Drives config state next result stop := (Feed.drive_of_shift hmove).trans h

/-- The first move is all that counts about a state. -/
theorem Drives.of_move (hmove : (machine config).move state start.lookahead =
      (machine config).move state' start.lookahead)
    (h : start.Drives config state' next result stop) :
    start.Drives config state next result stop := (Feed.drive_congr hmove).trans h

/-- Where a call fails it does not count how it would go on. -/
theorem Drives.of_error (h : start.Drives config state next (.error error) stop) :
    start.Drives config state next' (.error error) stop := h

/-- One call may come behind another one that does not fail. -/
theorem Drives.trans {tree : Expr} (h : start.Drives config state next (.ok tree) middle)
    (h' : middle.Drives config (next tree) next' result stop) :
    start.Drives config state next' result stop := Eq.trans h h'

/-- The machine may stop at once. -/
theorem drives_of_stop
    (hmove : (machine config).move state start.lookahead = .stop (.error error)) :
    start.Drives config state next (.error error) start := Feed.drive_of_stop hmove

/-- A call may come to nothing but a tree. -/
theorem drives_refl (tree : Expr) (h : next tree = state) :
    start.Drives config state next (.ok tree) start := by
  subst h
  rfl

end Counted

namespace Job.IsDriven

variable {config : Config} {start middle behind stop : Counted σ} {minimum : Int32}
  {left right whole : Expr} {c : Char} {result : Except SyntaxError Expr}

/-- An expression is its first operand and what follows that. -/
theorem expr (hdepth : start.depth < config.maxDepth)
    (hmiddle : middle.depth = start.depth + 1)
    (hprimary : Job.primary.IsDriven config start.enter (.ok left) middle)
    (htail : (Job.tail 0 left).IsDriven config middle result stop) :
    Job.expr.IsDriven config start result stop.leave := by
  obtain ⟨links, hdrives, htree⟩ := htail (Int32.le_refl 0)
  have hend : ∀ tree, result = .ok tree → config.operator? stop.lookahead.token = none :=
    fun tree hresult => operator?_of_lt (htree tree hresult).1
  refine ⟨fun stack => ?_, hend⟩
  obtain ⟨before', last', hcomplete, hbehind⟩ := hdrives [] left stack
  rw [hmiddle] at hbehind
  have hstart : start.Drives config ⟨.start, stack, start.depth⟩
      (fun _ => ⟨.operator before' last', stack, start.depth + 1⟩) result stop :=
    .of_move (move_start_of_lt hdepth stack _) ((hprimary [] stack).trans hbehind)
  cases result with
  | error error => exact hstart
  | ok tree =>
    obtain ⟨_, hmore⟩ := htree tree rfl
    obtain ⟨_, hclimb, _⟩ := hmore [] (hend tree rfl)
    -- What the machine has pending makes the tree that has been grouped on the way.
    have hwhole : complete before' last' [] = complete [] tree [] := by
      rw [hcomplete, complete_nil, complete, Expr.ofChain, hclimb]
    exact hstart.trans (.of_move (move_operator_congr (hend tree rfl) hwhole stack _)
      (Counted.drives_refl tree rfl))

/-- Behind an expression the machine may use a token up on account of what surrounds it. -/
theorem shift_end {last : Counted σ} {tree : Expr} {stack : List Frame} {state : State}
    {next : Expr → State} (h : Job.expr.IsDriven config start (.ok tree) stop)
    (hend : atEnd tree stack start.depth stop.lookahead = .shift state)
    (hrest : stop.advance.Drives config state next result last) :
    start.Drives config ⟨.start, stack, start.depth⟩ next result last :=
  (h.1 stack).trans (.of_shift ((move_operator_end (h.2 tree rfl) stack _).trans hend) hrest)

/-- The machine may stop behind an expression that has been read. -/
theorem stop_end {error : SyntaxError} {tree : Expr} {stack : List Frame} {next : Expr → State}
    (h : Job.expr.IsDriven config start (.ok tree) stop)
    (hend : atEnd tree stack start.depth stop.lookahead = .stop (.error error)) :
    start.Drives config ⟨.start, stack, start.depth⟩ next (.error error) stop :=
  (h.1 stack).trans
    (Counted.drives_of_stop ((move_operator_end (h.2 tree rfl) stack _).trans hend))

/-- Behind an operator the machine waits for its right operand. -/
theorem drives_operand (hoperator : config.operator? start.lookahead.token =
      some (c, config.tokenPrecedence start.lookahead.token))
    (hprimary : Job.primary.IsDriven config start.advance result middle) (before : List Pending)
    (last : Expr) (stack : List Frame) :
    start.Drives config ⟨.operator before last, stack, start.depth⟩
      (fun right => ⟨.operator (⟨last, c, config.tokenPrecedence start.lookahead.token⟩ :: before)
        right, stack, start.depth⟩) result middle :=
  .of_shift (move_operator_shift hoperator before last stack _) (hprimary _ stack)

/-- An operator takes a right operand, from which tighter ones may have taken something, and what
follows takes the result. -/
theorem tail_cons {link : Link} (hbound : ¬link.precedence < minimum)
    (hoperator : config.operator? start.lookahead.token = some (link.operator, link.precedence))
    (hbehind : behind.depth = start.depth) {inner : List Link}
    (hdrives : ∀ before last stack, ∃ before' last',
      (∀ more, complete before' last' more = complete before last (link :: (inner ++ more))) ∧
      start.Drives config ⟨.operator before last, stack, start.depth⟩
        (fun _ => ⟨.operator before' last', stack, start.depth⟩) (.ok whole) behind)
    (hright : ∀ more, Heads config behind.lookahead.token more →
      ∃ right : Link.Grouped (inner ++ more),
        right = (if Link.tighterThan link.precedence (inner ++ more) then
            Link.climb (link.precedence + 1) link.operand (inner ++ more)
          else ⟨link.operand, inner ++ more, Nat.le_refl _⟩) ∧
        right.expr = whole ∧ right.rest = more)
    (hrest : (Job.tail minimum (.binary link.operator left whole)).IsDriven config behind result
      stop) :
    (Job.tail minimum left).IsDriven config start result stop := by
  intro hminimum
  obtain ⟨links, hlater, htree⟩ := hrest hminimum
  refine ⟨link :: (inner ++ links), fun before last stack => ?_, fun tree hresult => ?_⟩
  · obtain ⟨before₁, last₁, hcomplete₁, hdrives₁⟩ := hdrives before last stack
    obtain ⟨before₂, last₂, hcomplete₂, hdrives₂⟩ := hlater before₁ last₁ stack
    rw [hbehind] at hdrives₂
    refine ⟨before₂, last₂, fun more => ?_, hdrives₁.trans hdrives₂⟩
    rw [hcomplete₂, hcomplete₁, List.cons_append, List.append_assoc]
  · obtain ⟨hloose, hmore⟩ := htree tree hresult
    refine ⟨hloose, fun more hheads => ?_⟩
    obtain ⟨hheads', hexpr, hleft⟩ := hmore more hheads
    obtain ⟨right, hgrouped, hwhole, hover⟩ := hright (links ++ more) hheads'
    obtain ⟨hclimb, hclimbRest⟩ := @Link.climb_cons minimum left link _ hbound right hgrouped
    rw [hwhole, hover] at hclimb hclimbRest
    rw [List.cons_append, List.append_assoc]
    exact ⟨hoperator, hclimb.trans hexpr, hclimbRest.trans hleft⟩

/-- Tighter operators take the right operand. -/
theorem tighter (hbound : ¬config.tokenPrecedence start.lookahead.token < minimum)
    (htoken : start.lookahead.token = .character c) (hmiddle : middle.depth = start.depth)
    (hbehind : behind.depth = start.depth)
    (hprimary : Job.primary.IsDriven config start.advance (.ok right) middle)
    (htighter : config.tokenPrecedence start.lookahead.token <
      config.tokenPrecedence middle.lookahead.token)
    (hinner : (Job.tail (config.tokenPrecedence start.lookahead.token + 1) right).IsDriven config
      middle (.ok whole) behind)
    (hrest : (Job.tail minimum (.binary c left whole)).IsDriven config behind result stop) :
    (Job.tail minimum left).IsDriven config start result stop := by
  intro hminimum
  obtain ⟨hoperator, hpos⟩ := operator?_of_not_lt htoken hminimum hbound
  obtain ⟨links, hdrives, htree⟩ := hinner (nonneg_succ hpos htighter)
  obtain ⟨_, hmore⟩ := htree whole rfl
  refine @tail_cons _ _ _ _ _ _ _ _ _ _ ⟨c, _, right⟩ hbound hoperator hbehind links ?_ ?_ hrest
    hminimum
  · intro before last stack
    obtain ⟨before', last', hcomplete, hgrouped⟩ := hdrives (⟨last, c, _⟩ :: before) right stack
    rw [hmiddle] at hgrouped
    exact ⟨before', last', hcomplete,
      (drives_operand hoperator hprimary before last stack).trans hgrouped⟩
  · intro more hheads
    obtain ⟨hheads', hexpr, hleft⟩ := hmore more hheads
    exact ⟨_, (if_pos ((hheads'.tighterThan_iff (Int32.le_of_lt hpos)).2 htighter)).symm, hexpr,
      hleft⟩

/-- No tighter operator takes the right operand. -/
theorem level (hbound : ¬config.tokenPrecedence start.lookahead.token < minimum)
    (htoken : start.lookahead.token = .character c) (hmiddle : middle.depth = start.depth)
    (hprimary : Job.primary.IsDriven config start.advance (.ok right) middle)
    (htighter : ¬config.tokenPrecedence start.lookahead.token <
      config.tokenPrecedence middle.lookahead.token)
    (hrest : (Job.tail minimum (.binary c left right)).IsDriven config middle result stop) :
    (Job.tail minimum left).IsDriven config start result stop := by
  intro hminimum
  obtain ⟨hoperator, hpos⟩ := operator?_of_not_lt htoken hminimum hbound
  refine @tail_cons _ _ _ _ _ _ _ _ _ _ ⟨c, _, right⟩ hbound hoperator hmiddle [] ?_ ?_ hrest
    hminimum
  · intro before last stack
    exact ⟨_, right, fun _ => rfl, drives_operand hoperator hprimary before last stack⟩
  · intro more hheads
    exact ⟨_, (if_neg (mt (hheads.tighterThan_iff (Int32.le_of_lt hpos)).1 htighter)).symm, rfl,
      rfl⟩

/-- Nothing follows that binds as tightly as the minimum. -/
theorem loose (h : config.tokenPrecedence start.lookahead.token < minimum) :
    (Job.tail minimum left).IsDriven config start (.ok left) start := by
  intro _
  refine ⟨[], fun before last stack => ⟨before, last, fun _ => rfl,
    Counted.drives_refl left rfl⟩, ?_⟩
  rintro tree ⟨⟩
  refine ⟨h, fun more hheads => ⟨hheads, Link.climb_loose ?_⟩⟩
  intro link hmem
  cases more with
  | nil => cases hmem
  | cons first more =>
    cases hmem
    rw [← hheads.tokenPrecedence_eq]
    exact h

/-- Where something fails behind an operand nothing is grouped. -/
theorem tail_error {error : SyntaxError}
    (h : 0 ≤ minimum → ∀ before last stack, ∃ next,
      start.Drives config ⟨.operator before last, stack, start.depth⟩ next (.error error) stop) :
    (Job.tail minimum left).IsDriven config start (.error error) stop := by
  intro hminimum
  refine ⟨[], fun before last stack => ?_, nofun⟩
  obtain ⟨next, hdrives⟩ := h hminimum before last stack
  exact ⟨before, last, fun _ => rfl, hdrives.of_error⟩

end Job.IsDriven

/-- Whatever a call comes to, the machine comes to on the tokens that it reads. -/
theorem Descends.isDriven {config : Config} {job : Job} {start stop : Counted σ}
    {result : Except SyntaxError Expr} (h : Descends config job start result stop) :
    job.IsDriven config start result stop := by
  induction h with
  | exprTooDeep hdepth =>
    exact ⟨fun stack => Counted.drives_of_stop (move_start_of_le hdepth _), nofun⟩
  | exprFails hdepth _ ih =>
    exact ⟨fun stack => .of_move (move_start_of_lt hdepth stack _) (ih [] stack).of_error, nofun⟩
  | expr hdepth hprimary _ ihprimary ihtail =>
    exact .expr hdepth hprimary.restores.depth_eq ihprimary ihtail
  | number htoken =>
    exact fun before stack => .of_shift (move_operand_number htoken before stack _)
      (Counted.drives_refl _ rfl)
  | bareName htoken hopen =>
    exact fun before stack => .of_shift (move_operand_name htoken before stack _)
      (.of_move (move_name_end hopen before _ stack _) (Counted.drives_refl _ rfl))
  | noArguments htoken hopen hclose =>
    exact fun before stack => .of_shift (move_operand_name htoken before stack _)
      (.of_shift (move_name_open hopen before _ stack _)
        (.of_shift (move_opened_close hclose before _ stack _) (Counted.drives_refl _ rfl)))
  | someArguments htoken hopen hclose _ ih =>
    exact fun before stack => .of_shift (move_operand_name htoken before stack _)
      (.of_shift (move_name_open hopen before _ stack _)
        (.of_move (move_opened hclose before _ stack _) (ih before stack)))
  | groupFails htoken _ ih =>
    exact fun before stack => .of_shift (move_operand_open htoken before stack _)
      (ih.1 (.group before :: stack)).of_error
  | group htoken _ hclose ih =>
    exact fun before stack => .of_shift (move_operand_open htoken before stack _)
      (ih.shift_end (atEnd_group_close hclose _ before stack _) (Counted.drives_refl _ rfl))
  | groupOpen htoken _ hclose ih =>
    exact fun before stack => .of_shift (move_operand_open htoken before stack _)
      (ih.stop_end (atEnd_group_open hclose _ before stack _))
  | unexpected hname hnumber hopen =>
    exact fun before stack =>
      Counted.drives_of_stop (atOperand_unexpected hname hnumber hopen before stack _)
  | argumentFails _ ih =>
    exact fun before stack => (ih.1 (.argument before _ _ :: stack)).of_error
  | lastArgument _ hclose ih =>
    exact fun before stack =>
      ih.shift_end (atEnd_argument_close hclose _ before _ _ stack _) (Counted.drives_refl _ rfl)
  | nextArgument hexpr hcomma _ ihexpr ihrest =>
    intro before stack
    have hrest := ihrest before stack
    rw [Counted.advance, Counted.on, hexpr.restores.depth_eq] at hrest
    exact ihexpr.shift_end (atEnd_argument_comma hcomma _ before _ _ stack _) hrest
  | argumentOpen _ hclose hcomma ih =>
    exact fun before stack =>
      ih.stop_end (atEnd_argument_open hclose hcomma _ before _ _ stack _)
  | loose h => exact .loose h
  | noOperator hbound htoken =>
    intro hminimum
    obtain ⟨c, hcharacter, _⟩ := exists_operator_of_not_lt hminimum hbound
    exact absurd hcharacter (htoken c)
  | operandFails hbound htoken _ ih =>
    refine .tail_error fun hminimum before last stack => ⟨fun _ => .initial, ?_⟩
    obtain ⟨hoperator, _⟩ := operator?_of_not_lt htoken hminimum hbound
    exact (Job.IsDriven.drives_operand hoperator ih before last stack).of_error
  | tighterFails hbound htoken hprimary htighter _ ihprimary ihinner =>
    refine .tail_error fun hminimum before last stack => ⟨fun _ => .initial, ?_⟩
    obtain ⟨hoperator, hpos⟩ := operator?_of_not_lt htoken hminimum hbound
    obtain ⟨_, hdrives, _⟩ := ihinner (nonneg_succ hpos htighter)
    obtain ⟨_, _, _, hfails⟩ := hdrives (⟨last, _, _⟩ :: before) _ stack
    rw [hprimary.restores.depth_eq] at hfails
    exact (Job.IsDriven.drives_operand hoperator ihprimary before last stack).trans hfails.of_error
  | tighter hbound htoken hprimary htighter hinner _ ihprimary ihinner ihrest =>
    have hmiddle := hprimary.restores.depth_eq
    exact .tighter hbound htoken hmiddle (hinner.restores.depth_eq.trans hmiddle) ihprimary htighter
      ihinner ihrest
  | level hbound htoken hprimary htighter _ ihprimary ihrest =>
    exact .level hbound htoken hprimary.restores.depth_eq ihprimary htighter ihrest

/-- A call for an expression comes to what the reader of expressions comes to, whatever the counter
is, if that counts from there. -/
theorem Descends.drive_eq {config : Config} {start stop : Counted σ}
    {result : Except SyntaxError Expr} (h : Descends config .expr start result stop) :
    start.feed.drive (machine config) ⟨.start, [], start.depth⟩ = ⟨result, stop.feed⟩ := by
  obtain ⟨hdrives, hend⟩ := h.isDriven
  cases result with
  | error error => exact hdrives []
  | ok tree =>
    have hthrough : start.feed.drive (machine config) ⟨.start, [], start.depth⟩ =
        stop.feed.drive (machine config) ⟨.operator [] tree, [], start.depth + 1⟩ := hdrives []
    rw [hthrough]
    exact Feed.drive_of_stop (move_operator_end (hend tree rfl) [] start.depth)

end Kaleidoscope
