import Mathlib
import Kaleidoscope.Expr.Reading

/-!
# Recursive descent

The reading of an expression as calls inside calls: an expression calls for its operands, an operand
calls for the expressions inside it, and an error leaves all calls at once. How deep expressions
nest is not passed on from call to call. It is counted in one place that all calls share, up where
an expression begins and down where it has been left, by whatever way. The main statements say that
every call gives the counter back as it was, that it never rises above the limit, and that every
call comes to a result.
-/

namespace Kaleidoscope

/-- How tightly a token binds as an operator, or less than any operator does. -/
def Config.tokenPrecedence (config : Config) (token : Token) : Int32 :=
  match config.operator? token with
  | some (_, precedence) => precedence
  | none => -1

/-- A feed, and a counter of the expressions that are being read from it. -/
structure Counted (σ : Type) where
  /-- The tokens to come. -/
  feed : Feed σ
  /-- The number of expressions that have begun and have not been left. -/
  depth : Nat
  /-- The largest number that there has been. -/
  peak : Nat

namespace Counted

variable {σ : Type}

/-- The token that comes next. -/
def lookahead (counted : Counted σ) : Lexeme := counted.feed.lookahead

/-- The counter does not change when the feed is another one. -/
def on (counted : Counted σ) (feed : Feed σ) : Counted σ := { counted with feed }

/-- An expression begins. -/
def enter (counted : Counted σ) : Counted σ :=
  ⟨counted.feed, counted.depth + 1, max counted.peak (counted.depth + 1)⟩

/-- An expression is left. -/
def leave (counted : Counted σ) : Counted σ := { counted with depth := counted.depth - 1 }

variable [CharStream σ]

/-- The token that comes next is used up. -/
def advance (counted : Counted σ) : Counted σ := counted.on counted.feed.advance

end Counted

/-- What a call reads. -/
inductive Job where
  /-- An expression. -/
  | expr
  /-- An operand. -/
  | primary
  /-- The arguments of a call from one of them on; those before are given in reverse. -/
  | arguments (callee : String) (done : List Expr)
  /-- The operators that bind at least as tightly as a minimum and their right operands, behind the
  left operand of the first of them. -/
  | tail (minimum : Int32) (left : Expr)

variable {σ : Type} [CharStream σ]

/-- What a call comes to: its result, and the feed and the counter behind it. Each rule is one way
through a call. -/
inductive Descends (config : Config) :
    Job → Counted σ → Except SyntaxError Expr → Counted σ → Prop where
  /-- The counter has come to the limit. -/
  | exprTooDeep {start : Counted σ} (hdepth : config.maxDepth ≤ start.depth) :
    Descends config .expr start
      (.error (.nestingTooDeep config.maxDepth start.lookahead.position)) start
  /-- The first operand fails, and the expression is left. -/
  | exprFails {start stop : Counted σ} {error : SyntaxError}
    (hdepth : start.depth < config.maxDepth)
    (hprimary : Descends config .primary start.enter (.error error) stop) :
    Descends config .expr start (.error error) stop.leave
  /-- The operators behind the first operand are read or fail, and the expression is left. -/
  | expr {start middle stop : Counted σ} {left : Expr} {result : Except SyntaxError Expr}
    (hdepth : start.depth < config.maxDepth)
    (hprimary : Descends config .primary start.enter (.ok left) middle)
    (htail : Descends config (.tail 0 left) middle result stop) :
    Descends config .expr start result stop.leave
  /-- An operand is a number. -/
  | number {start : Counted σ} {value : Double} (htoken : start.lookahead.token = .number value) :
    Descends config .primary start (.ok (.number value)) start.advance
  /-- An operand is a name without a parenthesis behind it. -/
  | bareName {start : Counted σ} {name : String}
    (htoken : start.lookahead.token = .identifier name)
    (hopen : start.advance.lookahead.token ≠ .character '(') :
    Descends config .primary start (.ok (.reference name)) start.advance
  /-- An operand is a call without arguments. -/
  | noArguments {start : Counted σ} {callee : String}
    (htoken : start.lookahead.token = .identifier callee)
    (hopen : start.advance.lookahead.token = .character '(')
    (hclose : start.advance.advance.lookahead.token = .character ')') :
    Descends config .primary start (.ok (.call callee [])) start.advance.advance.advance
  /-- An operand is a call with arguments. -/
  | someArguments {start stop : Counted σ} {callee : String} {result : Except SyntaxError Expr}
    (htoken : start.lookahead.token = .identifier callee)
    (hopen : start.advance.lookahead.token = .character '(')
    (hclose : start.advance.advance.lookahead.token ≠ .character ')')
    (harguments : Descends config (.arguments callee []) start.advance.advance result stop) :
    Descends config .primary start result stop
  /-- The expression in a group fails. -/
  | groupFails {start stop : Counted σ} {error : SyntaxError}
    (htoken : start.lookahead.token = .character '(')
    (hexpr : Descends config .expr start.advance (.error error) stop) :
    Descends config .primary start (.error error) stop
  /-- An operand is a group. -/
  | group {start stop : Counted σ} {tree : Expr} (htoken : start.lookahead.token = .character '(')
    (hexpr : Descends config .expr start.advance (.ok tree) stop)
    (hclose : stop.lookahead.token = .character ')') :
    Descends config .primary start (.ok tree) stop.advance
  /-- A group is not closed. -/
  | groupOpen {start stop : Counted σ} {tree : Expr}
    (htoken : start.lookahead.token = .character '(')
    (hexpr : Descends config .expr start.advance (.ok tree) stop)
    (hclose : stop.lookahead.token ≠ .character ')') :
    Descends config .primary start (.error (.expected .groupClose stop.lookahead)) stop
  /-- No operand begins with the token. -/
  | unexpected {start : Counted σ} (hname : ∀ name, start.lookahead.token ≠ .identifier name)
    (hnumber : ∀ value, start.lookahead.token ≠ .number value)
    (hopen : start.lookahead.token ≠ .character '(') :
    Descends config .primary start (.error (.unexpectedToken start.lookahead)) start
  /-- An argument fails. -/
  | argumentFails {start stop : Counted σ} {callee : String} {done : List Expr}
    {error : SyntaxError} (hexpr : Descends config .expr start (.error error) stop) :
    Descends config (.arguments callee done) start (.error error) stop
  /-- An argument is the last one. -/
  | lastArgument {start stop : Counted σ} {callee : String} {done : List Expr} {argument : Expr}
    (hexpr : Descends config .expr start (.ok argument) stop)
    (hclose : stop.lookahead.token = .character ')') :
    Descends config (.arguments callee done) start
      (.ok (.call callee (argument :: done).reverse)) stop.advance
  /-- Another argument follows. -/
  | nextArgument {start middle stop : Counted σ} {callee : String} {done : List Expr}
    {argument : Expr} {result : Except SyntaxError Expr}
    (hexpr : Descends config .expr start (.ok argument) middle)
    (hcomma : middle.lookahead.token = .character ',')
    (hrest : Descends config (.arguments callee (argument :: done)) middle.advance result stop) :
    Descends config (.arguments callee done) start result stop
  /-- An argument neither is the last one nor followed by another one. -/
  | argumentOpen {start stop : Counted σ} {callee : String} {done : List Expr} {argument : Expr}
    (hexpr : Descends config .expr start (.ok argument) stop)
    (hclose : stop.lookahead.token ≠ .character ')')
    (hcomma : stop.lookahead.token ≠ .character ',') :
    Descends config (.arguments callee done) start
      (.error (.expected .argumentEnd stop.lookahead)) stop
  /-- Nothing that binds as tightly as the minimum follows. -/
  | loose {start : Counted σ} {minimum : Int32} {left : Expr}
    (hloose : config.tokenPrecedence start.lookahead.token < minimum) :
    Descends config (.tail minimum left) start (.ok left) start
  /-- What follows is no character. -/
  | noOperator {start : Counted σ} {minimum : Int32} {left : Expr}
    (hbound : ¬config.tokenPrecedence start.lookahead.token < minimum)
    (htoken : ∀ c, start.lookahead.token ≠ .character c) :
    Descends config (.tail minimum left) start (.ok left) start
  /-- A right operand fails. -/
  | operandFails {start stop : Counted σ} {minimum : Int32} {left : Expr} {c : Char}
    {error : SyntaxError} (hbound : ¬config.tokenPrecedence start.lookahead.token < minimum)
    (htoken : start.lookahead.token = .character c)
    (hprimary : Descends config .primary start.advance (.error error) stop) :
    Descends config (.tail minimum left) start (.error error) stop
  /-- A tighter operator takes the right operand, and fails. -/
  | tighterFails {start middle stop : Counted σ} {minimum : Int32} {left right : Expr} {c : Char}
    {error : SyntaxError} (hbound : ¬config.tokenPrecedence start.lookahead.token < minimum)
    (htoken : start.lookahead.token = .character c)
    (hprimary : Descends config .primary start.advance (.ok right) middle)
    (htighter : config.tokenPrecedence start.lookahead.token <
      config.tokenPrecedence middle.lookahead.token)
    (hinner : Descends config (.tail (config.tokenPrecedence start.lookahead.token + 1) right)
      middle (.error error) stop) :
    Descends config (.tail minimum left) start (.error error) stop
  /-- Tighter operators take the right operand, and what follows takes the result. -/
  | tighter {start middle behind stop : Counted σ} {minimum : Int32} {left right whole : Expr}
    {c : Char} {result : Except SyntaxError Expr}
    (hbound : ¬config.tokenPrecedence start.lookahead.token < minimum)
    (htoken : start.lookahead.token = .character c)
    (hprimary : Descends config .primary start.advance (.ok right) middle)
    (htighter : config.tokenPrecedence start.lookahead.token <
      config.tokenPrecedence middle.lookahead.token)
    (hinner : Descends config (.tail (config.tokenPrecedence start.lookahead.token + 1) right)
      middle (.ok whole) behind)
    (hrest : Descends config (.tail minimum (.binary c left whole)) behind result stop) :
    Descends config (.tail minimum left) start result stop
  /-- No tighter operator takes the right operand, and what follows takes the result. -/
  | level {start middle stop : Counted σ} {minimum : Int32} {left right : Expr} {c : Char}
    {result : Except SyntaxError Expr}
    (hbound : ¬config.tokenPrecedence start.lookahead.token < minimum)
    (htoken : start.lookahead.token = .character c)
    (hprimary : Descends config .primary start.advance (.ok right) middle)
    (htighter : ¬config.tokenPrecedence start.lookahead.token <
      config.tokenPrecedence middle.lookahead.token)
    (hrest : Descends config (.tail minimum (.binary c left right)) middle result stop) :
    Descends config (.tail minimum left) start result stop

/-- What lies between the counted feeds in front of a call and behind it if it lies between those in
front of a token and behind it, and between those in front of an expression and behind it if it does
inside of the expression. -/
structure Counted.Persists (config : Config) (R : Counted σ → Counted σ → Prop) : Prop where
  /-- Nothing need happen. -/
  refl : ∀ counted, R counted counted
  /-- One thing may happen behind another. -/
  trans : ∀ {start middle stop}, R start middle → R middle stop → R start stop
  /-- A token may be used up. -/
  advance : ∀ counted, R counted counted.advance
  /-- An expression may begin below the limit, and is left. -/
  leave : ∀ {start stop}, start.depth < config.maxDepth → R start.enter stop → R start stop.leave

/-- Whether a counter is what it was, and has not risen above the limit if it had not before. -/
structure Counted.Restores (config : Config) (start stop : Counted σ) : Prop where
  /-- The counter is the same. -/
  depth_eq : stop.depth = start.depth
  /-- It has kept below the limit. -/
  peak_le : start.peak ≤ config.maxDepth → stop.peak ≤ config.maxDepth

/-- What begins below the limit and is left restores the counter. -/
theorem Counted.persists_restores (config : Config) :
    Counted.Persists config (@Counted.Restores σ config) where
  refl _ := ⟨rfl, id⟩
  trans h h' := ⟨h'.depth_eq.trans h.depth_eq, h'.peak_le ∘ h.peak_le⟩
  advance _ := ⟨rfl, id⟩
  leave hdepth h := ⟨congrArg (· - 1) h.depth_eq,
    fun hpeak => h.peak_le (Nat.max_le.2 ⟨hpeak, hdepth⟩)⟩

namespace Descends

variable {config : Config} {job : Job} {start stop : Counted σ}
  {result : Except SyntaxError Expr}

/-- What persists does so by whatever way a call is left. -/
theorem persists {R : Counted σ → Counted σ → Prop} (hR : Counted.Persists config R)
    (h : Descends config job start result stop) : R start stop := by
  induction h with
  | exprTooDeep => exact hR.refl _
  | exprFails hdepth _ ih => exact hR.leave hdepth ih
  | expr hdepth _ _ ihprimary ihtail => exact hR.leave hdepth (hR.trans ihprimary ihtail)
  | number => exact hR.advance _
  | bareName => exact hR.advance _
  | noArguments => exact hR.trans (hR.trans (hR.advance _) (hR.advance _)) (hR.advance _)
  | someArguments _ _ _ _ ih => exact hR.trans (hR.trans (hR.advance _) (hR.advance _)) ih
  | groupFails _ _ ih => exact hR.trans (hR.advance _) ih
  | group _ _ _ ih => exact hR.trans (hR.trans (hR.advance _) ih) (hR.advance _)
  | groupOpen _ _ _ ih => exact hR.trans (hR.advance _) ih
  | unexpected => exact hR.refl _
  | argumentFails _ ih => exact ih
  | lastArgument _ _ ih => exact hR.trans ih (hR.advance _)
  | nextArgument _ _ _ ihexpr ihrest => exact hR.trans (hR.trans ihexpr (hR.advance _)) ihrest
  | argumentOpen _ _ _ ih => exact ih
  | loose => exact hR.refl _
  | noOperator => exact hR.refl _
  | operandFails _ _ _ ih => exact hR.trans (hR.advance _) ih
  | tighterFails _ _ _ _ _ ihprimary ihinner =>
    exact hR.trans (hR.trans (hR.advance _) ihprimary) ihinner
  | tighter _ _ _ _ _ _ ihprimary ihinner ihrest =>
    exact hR.trans (hR.trans (hR.trans (hR.advance _) ihprimary) ihinner) ihrest
  | level _ _ _ _ _ ihprimary ihrest =>
    exact hR.trans (hR.trans (hR.advance _) ihprimary) ihrest

/-- Whatever a call comes to, the counter is behind it what it was in front of it, and has not risen
above the limit in between. -/
theorem restores (h : Descends config job start result stop) : start.Restores config stop :=
  h.persists (Counted.persists_restores config)

/-- No call leads away from the end. -/
theorem size_le (h : Descends config job start result stop) :
    stop.feed.size ≤ start.feed.size :=
  h.persists (R := fun start stop => stop.feed.size ≤ start.feed.size)
    ⟨fun _ => Nat.le_refl _, fun h h' => Nat.le_trans h' h, fun _ => Feed.size_advance_le _,
      fun _ h => h⟩

end Descends

/-- Whether a call on a counted feed comes to something. -/
def Counted.Settles (config : Config) (job : Job) (start : Counted σ) : Prop :=
  ∃ result stop, Descends config job start result stop

namespace Counted

variable {config : Config} {bound : Nat} {start : Counted σ}

/-- A token that is used up comes nearer to the end. -/
theorem size_advance_lt (hsize : start.feed.size ≤ bound)
    (h : start.lookahead.token ≠ .endOfInput) : start.advance.feed.size < bound :=
  Nat.lt_of_lt_of_le (Feed.size_advance_lt h) hsize

section Below

/-! A call comes to something if all calls nearer to the end do. -/

variable (ih : ∀ (job : Job) (next : Counted σ), next.feed.size < bound → next.Settles config job)

include ih

/-- The reading of an operand comes to a result. -/
theorem settles_primary (hsize : start.feed.size ≤ bound) : start.Settles config .primary := by
  have hname : ∀ name, start.lookahead.token = .identifier name →
      start.Settles config .primary := by
    intro name htoken
    have hlt := size_advance_lt hsize (by rw [htoken]; exact Token.noConfusion)
    by_cases hopen : start.advance.lookahead.token = .character '('
    · by_cases hclose : start.advance.advance.lookahead.token = .character ')'
      · exact ⟨_, _, .noArguments htoken hopen hclose⟩
      · have hlt' := Nat.lt_of_le_of_lt (Feed.size_advance_le start.advance.feed) hlt
        obtain ⟨result, stop, harguments⟩ := ih (.arguments name []) start.advance.advance hlt'
        exact ⟨result, stop, .someArguments htoken hopen hclose harguments⟩
    · exact ⟨_, _, .bareName htoken hopen⟩
  cases htoken : start.lookahead.token with
  | identifier name => exact hname name htoken
  | number value => exact ⟨_, _, .number htoken⟩
  | character c =>
    by_cases hopen : c = '('
    · subst hopen
      have hlt := size_advance_lt hsize (by rw [htoken]; exact Token.noConfusion)
      obtain ⟨result, stop, hexpr⟩ := ih .expr start.advance hlt
      cases result with
      | error error => exact ⟨_, _, .groupFails htoken hexpr⟩
      | ok tree =>
        by_cases hclose : stop.lookahead.token = .character ')'
        · exact ⟨_, _, .group htoken hexpr hclose⟩
        · exact ⟨_, _, .groupOpen htoken hexpr hclose⟩
    · refine ⟨_, _, .unexpected ?_ ?_ ?_⟩
      · simp [htoken]
      · simp [htoken]
      · simpa [htoken] using hopen
  | _ => exact ⟨_, _, .unexpected (by simp [htoken]) (by simp [htoken]) (by simp [htoken])⟩

/-- The reading of the operators behind an operand comes to a result. -/
theorem settles_tail (hsize : start.feed.size ≤ bound) (minimum : Int32) (left : Expr) :
    start.Settles config (.tail minimum left) := by
  by_cases hbound : config.tokenPrecedence start.lookahead.token < minimum
  · exact ⟨_, _, .loose hbound⟩
  · cases htoken : start.lookahead.token with
    | character c =>
      have hlt := size_advance_lt hsize (by rw [htoken]; exact Token.noConfusion)
      obtain ⟨result, middle, hprimary⟩ := ih .primary start.advance hlt
      have hmiddle := Nat.lt_of_le_of_lt hprimary.size_le hlt
      cases result with
      | error error => exact ⟨_, _, .operandFails hbound htoken hprimary⟩
      | ok right =>
        by_cases htighter : config.tokenPrecedence start.lookahead.token <
            config.tokenPrecedence middle.lookahead.token
        · obtain ⟨result, behind, hinner⟩ :=
            ih (.tail (config.tokenPrecedence start.lookahead.token + 1) right) middle hmiddle
          cases result with
          | error error => exact ⟨_, _, .tighterFails hbound htoken hprimary htighter hinner⟩
          | ok whole =>
            have hbehind := Nat.lt_of_le_of_lt hinner.size_le hmiddle
            obtain ⟨result, stop, hrest⟩ := ih (.tail minimum (.binary c left whole)) behind hbehind
            exact ⟨_, _, .tighter hbound htoken hprimary htighter hinner hrest⟩
        · obtain ⟨result, stop, hrest⟩ := ih (.tail minimum (.binary c left right)) middle hmiddle
          exact ⟨_, _, .level hbound htoken hprimary htighter hrest⟩
    | _ => exact ⟨_, _, .noOperator hbound (by simp [htoken])⟩

/-- The reading of an expression comes to a result. -/
theorem settles_expr (hsize : start.feed.size ≤ bound) : start.Settles config .expr := by
  by_cases hdepth : start.depth < config.maxDepth
  · have hprimary : start.enter.Settles config .primary := settles_primary ih hsize
    obtain ⟨result, middle, hprimary⟩ := hprimary
    cases result with
    | error error => exact ⟨_, _, .exprFails hdepth hprimary⟩
    | ok left =>
      have hmiddle : middle.feed.size ≤ bound := Nat.le_trans hprimary.size_le hsize
      obtain ⟨result, stop, htail⟩ := settles_tail ih hmiddle 0 left
      exact ⟨_, _, .expr hdepth hprimary htail⟩
  · exact ⟨_, _, .exprTooDeep (Nat.not_lt.1 hdepth)⟩

/-- The reading of arguments comes to a result. -/
theorem settles_arguments (hsize : start.feed.size ≤ bound) (callee : String)
    (done : List Expr) : start.Settles config (.arguments callee done) := by
  obtain ⟨result, stop, hexpr⟩ := settles_expr ih hsize
  cases result with
  | error error => exact ⟨_, _, .argumentFails hexpr⟩
  | ok argument =>
    by_cases hclose : stop.lookahead.token = .character ')'
    · exact ⟨_, _, .lastArgument hexpr hclose⟩
    · by_cases hcomma : stop.lookahead.token = .character ','
      · have hlt := size_advance_lt (Nat.le_trans hexpr.size_le hsize)
          (by rw [hcomma]; exact Token.noConfusion)
        obtain ⟨result, last, hrest⟩ := ih (.arguments callee (argument :: done)) stop.advance hlt
        exact ⟨_, _, .nextArgument hexpr hcomma hrest⟩
      · exact ⟨_, _, .argumentOpen hexpr hclose hcomma⟩

end Below

/-- Every call comes to something. -/
theorem settles (config : Config) (job : Job) (start : Counted σ) : start.Settles config job := by
  induction hsize : start.feed.size using Nat.strong_induction_on generalizing job start with
  | _ bound ih =>
    have hbelow : ∀ (job : Job) (next : Counted σ), next.feed.size < bound →
        next.Settles config job := fun job next hlt => ih _ hlt job next rfl
    cases job with
    | expr => exact settles_expr hbelow hsize.le
    | primary => exact settles_primary hbelow hsize.le
    | arguments callee done => exact settles_arguments hbelow hsize.le callee done
    | tail minimum left => exact settles_tail hbelow hsize.le minimum left

end Counted

end Kaleidoscope
