import Kaleidoscope.Token.Cursor

/-!
# Feeding tokens to a machine

A feed holds one token that has been cut and not yet used. A machine looks at that token and its
own state only, and either uses the token up and goes on, or stops and leaves the token where it
is. It never uses up the end of input, so every run comes to a stop.
-/

namespace Kaleidoscope

/-- A stream of tokens with one token of lookahead. -/
structure Feed (σ : Type) where
  /-- The token that comes next. -/
  lookahead : Lexeme
  /-- The cursor behind that token. -/
  cursor : Cursor σ

/-- What a machine does on a token. -/
inductive Move (S R : Type) where
  /-- It uses the token up and goes on in a state. -/
  | shift (next : S)
  /-- It stops in front of the token with a result. -/
  | stop (result : R)

/-- A reader of tokens with states `S` and results `R`. -/
structure Machine (S R : Type) where
  /-- The move on a token. -/
  move : S → Lexeme → Move S R
  /-- The end of input is never used up. -/
  token_of_shift : ∀ {state next : S} {lexeme : Lexeme}, move state lexeme = .shift next →
    lexeme.token ≠ .endOfInput

namespace Feed

variable {σ : Type}

/-- The feed after a token has been cut. -/
def ofScan (scan : Cursor.Scan σ) : Feed σ := ⟨scan.lexeme, scan.cursor⟩

/-- The reports so far, the oldest first. -/
def log (feed : Feed σ) : Array Event := feed.cursor.log

/-- Adds a report. -/
def report (feed : Feed σ) (event : Event) : Feed σ :=
  { feed with cursor := feed.cursor.report event }

variable [CharStream σ]

/-- The feed of a stream, with its first token cut. -/
def start (source : σ) : Feed σ := ofScan (Cursor.start source).scan

/-- Discards the lookahead and cuts the next token. -/
def advance (feed : Feed σ) : Feed σ := ofScan feed.cursor.scan

/-- A bound on the tokens before the end of input: those to come, and the lookahead. -/
def size (feed : Feed σ) : Nat :=
  match feed.lookahead.token with
  | .endOfInput => feed.cursor.size
  | _ => feed.cursor.size + 1

/-- A lookahead other than the end of input counts as a token. -/
theorem size_of_ne {feed : Feed σ} (h : feed.lookahead.token ≠ .endOfInput) :
    feed.size = feed.cursor.size + 1 := by
  rw [size]
  split
  · next heq => exact absurd heq h
  · rfl

/-- The token behind the lookahead is counted with those to come. -/
theorem size_advance_le_cursor (feed : Feed σ) : feed.advance.size ≤ feed.cursor.size := by
  rw [size]
  split
  · exact Cursor.size_scan_le _
  · next hne => exact Cursor.size_scan_lt hne

/-- Discarding a token does not lead away from the end. -/
theorem size_advance_le (feed : Feed σ) : feed.advance.size ≤ feed.size := by
  apply Nat.le_trans (size_advance_le_cursor feed)
  rw [size]
  split
  · exact Nat.le_refl _
  · exact Nat.le_succ _

/-- Using up a token comes nearer to the end. -/
theorem size_advance_lt {feed : Feed σ} (h : feed.lookahead.token ≠ .endOfInput) :
    feed.advance.size < feed.size := by
  rw [size_of_ne h]
  exact Nat.lt_succ_of_le (size_advance_le_cursor feed)

/-- The result of a run, and the feed that it leaves. -/
structure Outcome (σ R : Type) where
  /-- The result. -/
  result : R
  /-- The feed in front of the token on which the machine stopped. -/
  feed : Feed σ

/-- Runs a machine from a state until it stops. -/
def drive {S R : Type} (machine : Machine S R) (state : S) (feed : Feed σ) : Outcome σ R :=
  match _h : machine.move state feed.lookahead with
  | .shift next => feed.advance.drive machine next
  | .stop result => ⟨result, feed⟩
termination_by feed.size
decreasing_by exact size_advance_lt (machine.token_of_shift _h)

/-- A run does not lead away from the end. -/
theorem size_drive_le {S R : Type} (machine : Machine S R) (state : S) (feed : Feed σ) :
    (feed.drive machine state).feed.size ≤ feed.size := by
  fun_induction drive machine state feed with
  | case1 state feed next h ih =>
    exact Nat.le_trans ih (Nat.le_of_lt (size_advance_lt (machine.token_of_shift h)))
  | case2 => exact Nat.le_refl _

/-- A token that is used up leaves the rest of the run. -/
theorem drive_of_shift {S R : Type} {machine : Machine S R} {state next : S} {feed : Feed σ}
    (h : machine.move state feed.lookahead = .shift next) :
    feed.drive machine state = feed.advance.drive machine next := by
  rw [drive]
  split
  · next hshift => rw [h] at hshift; cases hshift; rfl
  · next hstop => rw [h] at hstop; exact nomatch hstop

/-- A run whose first move uses a token up comes nearer to the end. -/
theorem size_drive_lt {S R : Type} {machine : Machine S R} {state next : S} {feed : Feed σ}
    (h : machine.move state feed.lookahead = .shift next) :
    (feed.drive machine state).feed.size < feed.size := by
  rw [drive_of_shift h]
  exact Nat.lt_of_le_of_lt (size_drive_le _ _ _) (size_advance_lt (machine.token_of_shift h))

/-- A run that stops at once leaves the feed as it is. -/
theorem drive_of_stop {S R : Type} {machine : Machine S R} {state : S} {result : R}
    {feed : Feed σ} (h : machine.move state feed.lookahead = .stop result) :
    feed.drive machine state = ⟨result, feed⟩ := by
  rw [drive]
  split
  · next hshift => rw [h] at hshift; exact nomatch hshift
  · next hstop => rw [h] at hstop; cases hstop; rfl

end Feed

end Kaleidoscope
