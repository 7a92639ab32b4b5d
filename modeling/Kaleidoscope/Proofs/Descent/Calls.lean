import Kaleidoscope.CommandLine.Settings
import Kaleidoscope.Proofs.Descent.Sessions
import Kaleidoscope.Proofs.LineReader

/-!
# Arithmetic in calls

The calls that a call makes, and the sums that it takes: the minimum for the operators that take a
right operand is one above a precedence, and the counter of expressions goes up by one where an
expression begins and down by one where it is left. The main statement is that in all calls that are
ever made these sums stay in their ranges, that a call with a raised minimum uses an operator up,
and that no character is taken from outside of a line.
-/

namespace Kaleidoscope

/-- What a call reads, and the feed and the counter in front of it. -/
structure Call (σ : Type) where
  /-- What it reads. -/
  job : Job
  /-- Where it begins. -/
  start : Counted σ

variable {σ : Type} [CharStream σ]

/-- Whether the right operand of an operator has been read that binds at least as tightly as a
minimum, and what follows binds tighter than this operator. -/
structure Counted.Raises (config : Config) (start : Counted σ) (minimum : Int32) (right : Expr)
    (middle : Counted σ) : Prop where
  /-- The operator binds at least as tightly as the minimum. -/
  bound : ¬config.tokenPrecedence start.lookahead.token < minimum
  /-- It is a character. -/
  exists_character : ∃ c, start.lookahead.token = .character c
  /-- Its right operand has been read. -/
  primary : Descends config .primary start.advance (.ok right) middle
  /-- What follows binds tighter. -/
  tighter : config.tokenPrecedence start.lookahead.token <
    config.tokenPrecedence middle.lookahead.token

/-- The calls that a call makes, each where those before it have led. -/
inductive Calls (config : Config) : Call σ → Call σ → Prop where
  /-- An expression calls for its first operand. -/
  | first {start : Counted σ} (hdepth : start.depth < config.maxDepth) :
    Calls config ⟨.expr, start⟩ ⟨.primary, start.enter⟩
  /-- Behind it, it calls for operators of any precedence. -/
  | operators {start middle : Counted σ} {left : Expr} (hdepth : start.depth < config.maxDepth)
    (hprimary : Descends config .primary start.enter (.ok left) middle) :
    Calls config ⟨.expr, start⟩ ⟨.tail 0 left, middle⟩
  /-- An operand calls for its arguments. -/
  | arguments {start : Counted σ} {callee : String}
    (htoken : start.lookahead.token = .identifier callee)
    (hopen : start.advance.lookahead.token = .character '(')
    (hclose : start.advance.advance.lookahead.token ≠ .character ')') :
    Calls config ⟨.primary, start⟩ ⟨.arguments callee [], start.advance.advance⟩
  /-- An operand calls for the expression in a group. -/
  | group {start : Counted σ} (htoken : start.lookahead.token = .character '(') :
    Calls config ⟨.primary, start⟩ ⟨.expr, start.advance⟩
  /-- Arguments call for the first of them. -/
  | argument {start : Counted σ} {callee : String} {done : List Expr} :
    Calls config ⟨.arguments callee done, start⟩ ⟨.expr, start⟩
  /-- Arguments call for the others behind a comma. -/
  | others {start middle : Counted σ} {callee : String} {done : List Expr} {argument : Expr}
    (hexpr : Descends config .expr start (.ok argument) middle)
    (hcomma : middle.lookahead.token = .character ',') :
    Calls config ⟨.arguments callee done, start⟩
      ⟨.arguments callee (argument :: done), middle.advance⟩
  /-- Operators call for the right operand of the first of them. -/
  | right {start : Counted σ} {minimum : Int32} {left : Expr} {c : Char}
    (hbound : ¬config.tokenPrecedence start.lookahead.token < minimum)
    (htoken : start.lookahead.token = .character c) :
    Calls config ⟨.tail minimum left, start⟩ ⟨.primary, start.advance⟩
  /-- Operators call for tighter ones with a raised minimum. -/
  | raised {start middle : Counted σ} {minimum : Int32} {left right : Expr}
    (hraises : start.Raises config minimum right middle) :
    Calls config ⟨.tail minimum left, start⟩
      ⟨.tail (config.tokenPrecedence start.lookahead.token + 1) right, middle⟩
  /-- Behind tighter ones operators go on with the same minimum. -/
  | behindRaised {start middle behind : Counted σ} {minimum : Int32} {left right whole : Expr}
    {c : Char} (htoken : start.lookahead.token = .character c)
    (hraises : start.Raises config minimum right middle)
    (hinner : Descends config (.tail (config.tokenPrecedence start.lookahead.token + 1) right)
      middle (.ok whole) behind) :
    Calls config ⟨.tail minimum left, start⟩ ⟨.tail minimum (.binary c left whole), behind⟩
  /-- Where what follows does not bind tighter, operators go on there. -/
  | behindRight {start middle : Counted σ} {minimum : Int32} {left right : Expr} {c : Char}
    (hbound : ¬config.tokenPrecedence start.lookahead.token < minimum)
    (htoken : start.lookahead.token = .character c)
    (hprimary : Descends config .primary start.advance (.ok right) middle)
    (htighter : ¬config.tokenPrecedence start.lookahead.token <
      config.tokenPrecedence middle.lookahead.token) :
    Calls config ⟨.tail minimum left, start⟩ ⟨.tail minimum (.binary c left right), middle⟩

/-- Whether an operator stands in front, and it and any number of tokens behind it have been used
up. -/
structure Counted.UsesOperator (config : Config) (start stop : Counted σ) : Prop where
  /-- An operator stands in front. -/
  exists_operator : ∃ c precedence, 0 < precedence ∧
    config.operator? start.lookahead.token = some (c, precedence)
  /-- It has been used up. -/
  exists_feed_eq : ∃ count, stop.feed = Feed.advance^[count] start.feed.advance

/-- Whether the sums of a call stay in their ranges. -/
structure Call.IsSafe (config : Config) (call : Call σ) : Prop where
  /-- A minimum is not negative. -/
  nonneg : ∀ minimum left, call.job = .tail minimum left → 0 ≤ minimum
  /-- Where a minimum is raised, it is one above a precedence that is not the greatest integer, and
  with the raised minimum an operator is used up, whether that fails or not. -/
  raised : ∀ minimum left right middle, call.job = .tail minimum left →
    call.start.Raises config minimum right middle →
      (config.tokenPrecedence call.start.lookahead.token).toInt + 1 ≤
          CommandLine.greatestPrecedence ∧
        (config.tokenPrecedence call.start.lookahead.token + 1).toInt =
          (config.tokenPrecedence call.start.lookahead.token).toInt + 1 ∧
        ∀ result stop,
          Descends config (.tail (config.tokenPrecedence call.start.lookahead.token + 1) right)
            middle result stop → middle.UsesOperator config stop
  /-- Where an expression begins the counter is below the greatest depth. -/
  begun : call.job = .expr → call.start.depth < config.maxDepth →
    call.start.depth + 1 ≤ CommandLine.greatestDepth
  /-- Where it is left, because its first operand fails or behind its operators, the counter is
  above zero. -/
  left : call.job = .expr → call.start.depth < config.maxDepth →
    (∀ error stop, Descends config .primary call.start.enter (.error error) stop →
      0 < stop.depth) ∧
    ∀ tree middle result stop, Descends config .primary call.start.enter (.ok tree) middle →
      Descends config (.tail 0 tree) middle result stop → 0 < stop.depth

section Sums

variable {config : Config} {call next : Call σ} {start middle stop : Counted σ}

/-- What is raised is a precedence of an operator, and below that of another one. -/
theorem Counted.Raises.operators {minimum : Int32} {right : Expr} (hminimum : 0 ≤ minimum)
    (h : start.Raises config minimum right middle) :
    0 < config.tokenPrecedence start.lookahead.token ∧
      ∃ c precedence, 0 < precedence ∧
        config.operator? middle.lookahead.token = some (c, precedence) := by
  obtain ⟨_, _, _, hpos⟩ := ExprReader.exists_operator_of_not_lt hminimum h.bound
  have hnot : ¬config.tokenPrecedence middle.lookahead.token < 0 := by
    intro hlt
    have hlow := Int32.lt_trans (Int32.lt_trans hpos h.tighter) hlt
    exact Int32.lt_irrefl hlow
  obtain ⟨c, _, hoperator, hpos'⟩ :=
    ExprReader.exists_operator_of_not_lt (Int32.le_refl 0) hnot
  exact ⟨hpos, c, _, hpos', hoperator⟩

/-- A raised minimum is not negative. -/
theorem Counted.Raises.nonneg {minimum : Int32} {right : Expr} (hminimum : 0 ≤ minimum)
    (h : start.Raises config minimum right middle) :
    0 ≤ config.tokenPrecedence start.lookahead.token + 1 :=
  ExprReader.nonneg_succ (h.operators hminimum).1 h.tighter

/-- No call passes a negative minimum down if it has none itself. -/
theorem Calls.nonneg (h : Calls config call next)
    (hcall : ∀ minimum left, call.job = .tail minimum left → 0 ≤ minimum) :
    ∀ minimum left, next.job = .tail minimum left → 0 ≤ minimum := by
  intro minimum left hnext
  cases h with
  | first | arguments | group | argument | others | right => cases hnext
  | operators =>
    cases hnext
    exact Int32.le_refl 0
  | raised hraises =>
    cases hnext
    exact hraises.nonneg (hcall _ _ rfl)
  | behindRaised | behindRight =>
    cases hnext
    exact hcall _ _ rfl

/-- What is used up in a call are tokens in front of it. -/
theorem Counted.persists_advances (config : Config) :
    Counted.Persists config fun start stop : Counted σ =>
      ∃ count, stop.feed = Feed.advance^[count] start.feed where
  refl _ := ⟨0, rfl⟩
  trans := by
    rintro start middle stop ⟨count, hmiddle⟩ ⟨more, hstop⟩
    exact ⟨more + count, by rw [hstop, hmiddle, Function.iterate_add_apply]⟩
  advance _ := ⟨1, rfl⟩
  leave _ h := h

/-- Where something binds at least as tightly as the minimum, a call for operators uses it up. -/
theorem Descends.exists_feed_eq {minimum : Int32} {left : Expr} {c : Char}
    {result : Except SyntaxError Expr} (h : Descends config (.tail minimum left) start result stop)
    (hbound : ¬config.tokenPrecedence start.lookahead.token < minimum)
    (htoken : start.lookahead.token = .character c) :
    ∃ count, stop.feed = Feed.advance^[count] start.feed.advance := by
  have hadvances := Counted.persists_advances config (σ := σ)
  change (fun start stop : Counted σ => ∃ count, stop.feed = Feed.advance^[count] start.feed)
    start.advance stop
  cases h with
  | loose hloose => exact absurd hloose hbound
  | noOperator _ hnone => exact absurd htoken (hnone c)
  | operandFails _ _ hprimary => exact hprimary.persists hadvances
  | tighterFails _ _ hprimary _ hinner =>
    exact hadvances.trans (hprimary.persists hadvances) (hinner.persists hadvances)
  | tighter _ _ hprimary _ hinner hrest =>
    exact hadvances.trans (hadvances.trans (hprimary.persists hadvances)
      (hinner.persists hadvances)) (hrest.persists hadvances)
  | level _ _ hprimary _ hrest =>
    exact hadvances.trans (hprimary.persists hadvances) (hrest.persists hadvances)

/-- A call without a negative minimum keeps its sums in their ranges. -/
theorem Call.isSafe_of_nonneg (hmax : config.maxDepth ≤ CommandLine.greatestDepth)
    (hcall : ∀ minimum left, call.job = .tail minimum left → 0 ≤ minimum) :
    call.IsSafe config where
  nonneg := hcall
  raised minimum left right middle hjob hraises := by
    have hsucc := Link.toInt_succ hraises.tighter
    have hlt := Int32.lt_iff_toInt_lt.1 hraises.tighter
    have hbound := Int32.toInt_lt (config.tokenPrecedence middle.lookahead.token)
    refine ⟨?_, hsucc, fun result stop hinner => ?_⟩
    · rw [CommandLine.greatestPrecedence]
      omega
    · obtain ⟨_, c, precedence, hpos, hoperator⟩ := hraises.operators (hcall minimum left hjob)
      have hreaches : ¬config.tokenPrecedence middle.lookahead.token <
          config.tokenPrecedence call.start.lookahead.token + 1 := by
        rw [Int32.lt_iff_toInt_lt, hsucc]
        omega
      exact ⟨⟨c, precedence, hpos, hoperator⟩,
        hinner.exists_feed_eq hreaches (Config.operator?_eq_some hoperator).1⟩
  begun _ hdepth := Nat.le_trans hdepth hmax
  left _ _ := by
    have hentered : ∀ {stop : Counted σ}, call.start.enter.Restores config stop → 0 < stop.depth :=
      fun h => by
        rw [h.depth_eq]
        exact Nat.succ_pos _
    refine ⟨fun error stop hprimary => hentered hprimary.restores,
      fun tree middle result stop hprimary htail => hentered ?_⟩
    exact (Counted.persists_restores config).trans hprimary.restores htail.restores

/-- All calls inside of an expression keep their sums in their ranges. -/
theorem Call.isSafe_of_reaches (hmax : config.maxDepth ≤ CommandLine.greatestDepth)
    {root : Counted σ} (h : Relation.ReflTransGen (Calls config) ⟨.expr, root⟩ call) :
    call.IsSafe config := by
  have hnonneg : ∀ minimum left, call.job = .tail minimum left → 0 ≤ minimum := by
    induction h with
    | refl => exact fun minimum left hjob => nomatch hjob
    | tail _ hcalls ih => exact hcalls.nonneg ih
  exact isSafe_of_nonneg hmax hnonneg

end Sums

/-- Where the expressions of a construct begin. -/
inductive Counted.Begins (config : Config) : Construct → Counted σ → Counted σ → Prop where
  /-- An expression begins at once. -/
  | expr (start : Counted σ) : Begins config .expr start start
  /-- The body of a definition begins behind its prototype. -/
  | definition {start : Counted σ} {prototype : Prototype}
    (hprototype : start.advance.feed.readPrototype.result = .ok prototype) :
    Begins config .definition start start.advance.skipPrototype
  /-- An expression that is to be evaluated at once begins at once. -/
  | topLevelExpr (start : Counted σ) : Begins config .topLevelExpr start start
  /-- A form may be a definition. -/
  | formDefinition {start root : Counted σ}
    (htoken : start.skipSeparators.lookahead.token = .definitionWord)
    (h : Begins config .definition start.skipSeparators root) : Begins config .form start root
  /-- It may be an expression. -/
  | formExpr {start : Counted σ} (hend : start.skipSeparators.lookahead.token ≠ .endOfInput)
    (hdefinition : start.skipSeparators.lookahead.token ≠ .definitionWord)
    (hexternal : start.skipSeparators.lookahead.token ≠ .externWord) :
    Begins config .form start start.skipSeparators

/-- Where the expressions of a run begin. -/
inductive Counted.BeginsOnRun (config : Config) : Counted σ → Counted σ → Prop where
  /-- An expression of the first form. -/
  | here {start root : Counted σ} (h : Begins config .form start root) :
    BeginsOnRun config start root
  /-- An expression behind a form. -/
  | behindForm {start middle root : Counted σ} {form : Form}
    (hread : Reads config .form start (some (.ok form)) middle)
    (h : BeginsOnRun config (middle.report (.parsed form.kind)) root) :
    BeginsOnRun config start root
  /-- An expression behind a form that fails. -/
  | behindFailure {start middle root : Counted σ} {error : SyntaxError}
    (hread : Reads config .form start (some (.error error)) middle)
    (h : BeginsOnRun config (middle.report (.rejected error)).advance root) :
    BeginsOnRun config start root

namespace Parser

/-- Where the expressions of an operation begin. -/
inductive Begins (parser : Parser σ) : Session.Operation → Counted σ → Prop where
  /-- They begin where those of a construct do. -/
  | reads {construct : Construct} {root : Counted σ}
    (h : parser.counted.Begins parser.config construct root) :
    Begins parser (.reading construct) root
  /-- They begin where those of a run do. -/
  | run {root : Counted σ} (h : parser.counted.BeginsOnRun parser.config root) :
    Begins parser .run root

/-- Whether a call is made by an operation: for an expression, or inside of such a call. -/
def Makes (parser : Parser σ) (operation : Session.Operation) (call : Call σ) : Prop :=
  ∃ root, parser.Begins operation root ∧
    Relation.ReflTransGen (Calls parser.config) ⟨.expr, root⟩ call

/-- An operation leaves the depth limit as it is. -/
theorem Performs.maxDepth_eq {parser behind : Parser σ} {operation : Session.Operation}
    (h : Performs parser operation behind) : behind.config.maxDepth = parser.config.maxDepth := by
  cases h with
  | register c precedence =>
    rcases parser.session.register_cases c precedence with ⟨_, hstep, _⟩ | ⟨hstep, _⟩
    · rw [hstep]
      rfl
    · rw [hstep]
      rfl
  | remove | advance | reads | run => rfl

/-- Any number of operations keep the limit. -/
theorem PerformsAll.maxDepth_eq {parser behind : Parser σ} {operations : List Session.Operation}
    (h : PerformsAll parser operations behind) :
    behind.config.maxDepth = parser.config.maxDepth := by
  induction h with
  | nil => rfl
  | cons hfirst _ ih => exact ih.trans hfirst.maxDepth_eq

/-- Nothing leaves its range. Whatever the operators and the source are, and for a depth limit of 64
bits, all calls that are ever made, by any operation behind any others, are safe: a minimum is not
negative; one that is raised is one above a precedence that is not the greatest integer, and with it
an operator is used up; and the counter of expressions stays below the greatest depth where it goes
up, and is above zero where it goes down. Whatever a byte input does, a reader that knows what it
has delivered of its line by a place answers any number of requests, and so finds that place inside
the line whenever it has not ended; its answers are those of the stream of lines. -/
theorem never_out_of_range (config : Config) (hmax : config.maxDepth ≤ CommandLine.greatestDepth) :
    (∀ (source : σ) (operations : List Session.Operation),
      (∃ parser, (start source config).PerformsAll operations parser) ∧
      ∀ parser, (start source config).PerformsAll operations parser →
        parser.session = (Session.start source config).performAll operations ∧
        ∀ operation call, parser.Makes operation call → call.IsSafe parser.config) ∧
    ∀ (events : List InputEvent) (count : Nat),
      ∃ reader reading, (LineReader.ofEvents events).after? count = some reader ∧
        (reader.filled.finished = false → reader.filled.cursor < reader.filled.line.size) ∧
        reader.next? = some reading ∧
        reading.char? = (CharStream.next (CharStream.after (Lines.ofEvents events) count)).char? ∧
        reading.fault? =
          (CharStream.next (CharStream.after (Lines.ofEvents events) count)).fault? := by
  constructor
  · intro source operations
    have hstart := rests_start source config
    refine ⟨hstart.exists_performsAll operations, fun parser hperforms =>
      ⟨(hstart.of_performsAll hperforms).2, fun operation call hmakes => ?_⟩⟩
    obtain ⟨root, _, hreaches⟩ := hmakes
    exact Call.isSafe_of_reaches (hperforms.maxDepth_eq.trans_le hmax) hreaches
  · intro events count
    obtain ⟨reader, hreader, hfollows⟩ := LineReader.exists_after? events count
    obtain ⟨reading, hreading, hchar, hfault, _⟩ := hfollows.next?_eq
    exact ⟨reader, reading, hreader, LineReader.cursor_filled_lt, hreading, hchar, hfault⟩

/-- A plus sign with the precedence below the greatest integer, and a percent sign with that one:
behind the plus sign the minimum is raised to the greatest integer. An input that fails behind one
letter answers the request behind that letter. -/
theorem never_out_of_range_of_greatest :
    let config : Config := ⟨⟨[('%', 2147483647), ('+', 2147483646)]⟩, CommandLine.greatestDepth⟩
    let parser := start (Text.ofString "a+b%c") config
    config.maxDepth ≤ CommandLine.greatestDepth ∧
      (∃ behind middle : Counted Text,
        parser.Makes .readExpr ⟨.tail 0 (.reference "a"), behind⟩ ∧
        behind.Raises config 0 (.reference "b") middle ∧
        (config.tokenPrecedence behind.lookahead.token + 1).toInt = 2147483647 ∧
        ∀ result stop, Descends config
          (.tail (config.tokenPrecedence behind.lookahead.token + 1) (.reference "b")) middle result
            stop → middle.UsesOperator config stop) ∧
      ∃ reader reading,
        (LineReader.ofEvents [.bytes [0x61, 0x0A], .failed "gone"]).after? 2 = some reader ∧
        reader.next? = some reading ∧ reading.char? = none ∧ reading.fault? = some "gone" := by
  intro config parser
  obtain ⟨hparser, hreader⟩ := @never_out_of_range Text _ config (Nat.le_refl _)
  refine ⟨Nat.le_refl _, ?_, ?_⟩
  · have hsafe := ((hparser (Text.ofString "a+b%c") []).2 parser (.nil parser)).2
    let behind := parser.counted.enter.advance
    have hplus : behind.lookahead.token = .character '+' := by cbv
    have hpercent : behind.advance.advance.lookahead.token = .character '%' := by cbv
    have hfirst : behind.lookahead.token ≠ .character '(' := by simp [hplus]
    have hsecond : behind.advance.advance.lookahead.token ≠ .character '(' := by simp [hpercent]
    have hleft : Descends config .primary parser.counted.enter (.ok (.reference "a")) behind :=
      .bareName (by cbv) hfirst
    have hright : Descends config .primary behind.advance (.ok (.reference "b"))
        behind.advance.advance := .bareName (by cbv) hsecond
    have hraises : behind.Raises config 0 (.reference "b") behind.advance.advance :=
      ⟨by decide +kernel, ⟨'+', hplus⟩, hright, by decide +kernel⟩
    have hmakes : parser.Makes .readExpr ⟨.tail 0 (.reference "a"), behind⟩ :=
      ⟨parser.counted, .reads (.expr parser.counted),
        .single (.operators (by decide +kernel) hleft)⟩
    obtain ⟨_, hsucc, huses⟩ := (hsafe _ _ hmakes).raised 0 _ _ _ rfl hraises
    refine ⟨behind, _, hmakes, hraises, hsucc.trans (by decide +kernel), huses⟩
  · obtain ⟨reader, reading, hafter, _, hnext, hchar, hfault⟩ :=
      hreader [.bytes [0x61, 0x0A], .failed "gone"] 2
    exact ⟨reader, reading, hafter, hnext, hchar.trans (by cbv), hfault.trans (by cbv)⟩

end Parser

end Kaleidoscope
