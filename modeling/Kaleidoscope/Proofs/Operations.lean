import Kaleidoscope.Session

/-!
# What operations keep

Every operation on a session moves its cursor by single characters and adds reports, and does
nothing else to it. What these two steps keep is therefore kept by every operation, whether it
succeeds or fails. The main statement is that the sessions which operations lead to keep it.
-/

namespace Kaleidoscope

variable {σ : Type} [CharStream σ]

namespace Cursor

/-- The cursor behind a number of tokens, the end of input being one as often as it is asked for. -/
def afterTokens (cursor : Cursor σ) : Nat → Cursor σ
  | 0 => cursor
  | count + 1 => (cursor.afterTokens count).scan.cursor

/-- The first token may be counted apart from the others. -/
theorem afterTokens_succ (cursor : Cursor σ) (count : Nat) :
    cursor.afterTokens (count + 1) = cursor.scan.cursor.afterTokens count := by
  induction count with
  | zero => rfl
  | succ count ih => rw [afterTokens, ih, afterTokens]

/-- What steps do not change about a cursor. -/
structure Stepped (P : Cursor σ → Prop) : Prop where
  /-- A step keeps it. -/
  advance : ∀ {cursor : Cursor σ}, P cursor → P cursor.advance

namespace Stepped

variable {P : Cursor σ → Prop} {cursor : Cursor σ}

/-- What one step keeps is kept when characters are passed over. -/
theorem skipWhile (stepped : Stepped P) (isMember : Char → Bool) (h : P cursor) :
    P (cursor.skipWhile isMember) := by
  fun_induction Cursor.skipWhile isMember cursor with
  | case1 => exact h
  | case2 cursor c hcurrent hmember ih => exact ih (stepped.advance h)
  | case3 => exact h

/-- What one step keeps is kept when characters are taken. -/
theorem takeWhile (stepped : Stepped P) (isMember : Char → Bool) (taken : List Char)
    (h : P cursor) : P (cursor.takeWhile isMember taken).cursor := by
  fun_induction Cursor.takeWhile isMember taken cursor with
  | case1 => exact h
  | case2 taken cursor c hcurrent hmember ih => exact ih (stepped.advance h)
  | case3 => exact h

/-- What one step keeps is kept when a gap is passed over. -/
theorem skipGap (stepped : Stepped P) (h : P cursor) : P cursor.skipGap := by
  fun_induction Cursor.skipGap cursor with
  | case1 cursor here hcomment ih =>
    exact ih (stepped.skipWhile _ (stepped.advance (stepped.skipWhile _ h)))
  | case2 cursor here hcomment => exact stepped.skipWhile _ h

/-- What one step keeps is kept when a token is cut. -/
theorem cut (stepped : Stepped P) (h : P cursor) : P cursor.cut.cursor := by
  rw [Cursor.cut]
  split
  · exact h
  · split
    · exact stepped.takeWhile _ _ (stepped.advance h)
    · split
      · exact stepped.takeWhile _ _ (stepped.advance h)
      · exact stepped.advance h

end Stepped

/-- What is changed about a cursor neither by steps nor by reports of less than an error. -/
structure Kept (P : Cursor σ → Prop) : Prop where
  /-- A step keeps it. -/
  advance : ∀ {cursor : Cursor σ}, P cursor → P cursor.advance
  /-- A report keeps it. -/
  report : ∀ {cursor : Cursor σ} {event : Event}, event.level ≠ .error → P cursor →
    P (cursor.report event)

/-- A kept property of cursors holds behind a token that is asked for. -/
theorem Kept.scan {P : Cursor σ → Prop} (kept : Kept P) {cursor : Cursor σ} (h : P cursor) :
    P cursor.scan.cursor := by
  have stepped : Stepped P := ⟨kept.advance⟩
  exact kept.report Level.noConfusion (stepped.cut (stepped.skipGap h))

/-- A kept property of cursors holds behind any number of tokens that are asked for. -/
theorem Kept.afterTokens {P : Cursor σ → Prop} (kept : Kept P) {cursor : Cursor σ} (h : P cursor)
    (count : Nat) : P (cursor.afterTokens count) := by
  induction count with
  | zero => exact h
  | succ count ih => exact kept.scan ih

end Cursor

namespace Feed

/-- What is changed about a feed neither by discarding a token nor by reports of less than an
error. -/
structure Kept (P : Feed σ → Prop) : Prop where
  /-- Discarding a token keeps it. -/
  advance : ∀ {feed : Feed σ}, P feed → P feed.advance
  /-- A report keeps it. -/
  report : ∀ {feed : Feed σ} {event : Event}, event.level ≠ .error → P feed →
    P (feed.report event)

namespace Kept

variable {P : Feed σ → Prop} {feed : Feed σ} {config : Config}

/-- A kept property holds behind every machine. -/
theorem drive {S R : Type} (kept : Kept P) (machine : Machine S R) (state : S) (h : P feed) :
    P (feed.drive machine state).feed := by
  fun_induction Feed.drive machine state feed with
  | case1 state feed next hmove ih => exact ih (kept.advance h)
  | case2 => exact h

/-- A kept property holds behind an expression that is read. -/
theorem readExpr (kept : Kept P) (h : P feed) : P (feed.readExpr config).feed :=
  kept.drive (ExprReader.machine config) .initial h

/-- A kept property holds behind a prototype that is read. -/
theorem readPrototype (kept : Kept P) (h : P feed) : P feed.readPrototype.feed :=
  kept.drive PrototypeReader.machine .name h

/-- A kept property holds behind an extern that is read. -/
theorem readExtern (kept : Kept P) (h : P feed) : P feed.readExtern.feed :=
  kept.readPrototype (kept.advance h)

/-- A kept property holds behind an expression that is read to be evaluated at once. -/
theorem readTopLevelExpr (kept : Kept P) (h : P feed) : P (feed.readTopLevelExpr config).feed :=
  kept.readExpr h

omit [CharStream σ] in
/-- A property that each of two readings keeps is kept by one behind the other. -/
theorem andThen {α β : Type} {outcome : Read σ α} {next : α → Feed σ → Read σ β}
    (hfirst : P outcome.feed) (hnext : ∀ result feed, P feed → P (next result feed).feed) :
    P (outcome.andThen next).feed := by
  unfold Outcome.andThen
  split
  · exact hnext _ _ hfirst
  · exact hfirst

/-- A kept property holds behind a definition that is read. -/
theorem readDefinition (kept : Kept P) (h : P feed) : P (feed.readDefinition config).feed :=
  andThen (kept.readPrototype (kept.advance h)) fun _ _ hfeed => kept.readExpr hfeed

/-- A kept property holds behind a form that is read. -/
theorem readForm (kept : Kept P) (h : P feed) : P (feed.readForm config).feed := by
  have hskip : P feed.skipSeparators := kept.drive Separators.machine () h
  rw [Feed.readForm, readFormHere]
  split
  · exact hskip
  · exact kept.readDefinition hskip
  · exact kept.readExtern hskip
  · exact kept.readTopLevelExpr hskip

/-- A kept property holds behind a run. -/
theorem runFrom (kept : Kept P) (summary : Summary) (done : List (Except SyntaxError Form))
    (h : P feed) : P (feed.runFrom config summary done).feed := by
  fun_induction Feed.runFrom config summary done feed with
  | case1 summary done feed read hresult => exact kept.readForm h
  | case2 summary done feed read form hresult ih =>
    exact ih (kept.report Level.noConfusion (kept.readForm h))
  | case3 summary done feed read error hresult ih =>
    exact ih (kept.advance (kept.report Level.noConfusion (kept.readForm h)))

end Kept

end Feed

namespace Session

/-- What can be asked of a session. -/
inductive Operation where
  /-- To register a binary operator. -/
  | register (c : Char) (precedence : Int32)
  /-- To take a character out of the operator table. -/
  | remove (c : Char)
  /-- To discard the token that comes next. -/
  | advance
  /-- To read an expression. -/
  | readExpr
  /-- To read a prototype. -/
  | readPrototype
  /-- To read a definition. -/
  | readDefinition
  /-- To read an extern. -/
  | readExtern
  /-- To read an expression that is to be evaluated at once. -/
  | readTopLevelExpr
  /-- To read the next form. -/
  | readForm
  /-- To read all forms to the end of the input. -/
  | run

/-- The session after an operation, whatever its result. -/
def perform (session : Session σ) : Operation → Session σ
  | .register c precedence => (session.register c precedence).session
  | .remove c => (session.remove c).session
  | .advance => session.advance
  | .readExpr => session.readExpr.session
  | .readPrototype => session.readPrototype.session
  | .readDefinition => session.readDefinition.session
  | .readExtern => session.readExtern.session
  | .readTopLevelExpr => session.readTopLevelExpr.session
  | .readForm => session.readForm.session
  | .run => session.run.session

/-- The session after some operations, the first one first. -/
def performAll (session : Session σ) (operations : List Operation) : Session σ :=
  operations.foldl perform session

omit [CharStream σ] in
/-- The operator table can be changed without touching the tokens. -/
theorem feed_register (session : Session σ) (c : Char) (precedence : Int32) :
    (session.register c precedence).session.feed = session.feed := by
  rw [register]
  split <;> rfl

variable {P : Feed σ → Prop} {session : Session σ}

/-- A kept property holds behind any operation. -/
theorem kept_perform (kept : Feed.Kept P) (h : P session.feed) (operation : Operation) :
    P (session.perform operation).feed := by
  cases operation with
  | register c precedence =>
    rw [perform, feed_register]
    exact h
  | remove c => exact h
  | advance => exact kept.advance h
  | readExpr => exact kept.readExpr h
  | readPrototype => exact kept.readPrototype h
  | readDefinition => exact kept.readDefinition h
  | readExtern => exact kept.readExtern h
  | readTopLevelExpr => exact kept.readTopLevelExpr h
  | readForm => exact kept.readForm h
  | run => exact kept.runFrom _ _ h

/-- A kept property holds behind any sequence of operations. -/
theorem kept_performAll (kept : Feed.Kept P) (h : P session.feed) (operations : List Operation) :
    P (session.performAll operations).feed := by
  induction operations generalizing session with
  | nil => exact h
  | cons operation operations ih => exact ih (kept_perform kept h operation)

end Session

end Kaleidoscope
