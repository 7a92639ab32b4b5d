import Kaleidoscope.Expr.Reading
import Kaleidoscope.Proofs.Machine

/-!
# What surrounds an expression

The reader of an expression keeps below what it is reading what it will go back to: the operands
that are pending there, and the groups and calls that are open. The main statement says that none of
this has a part in a run that does not go back to it: the same run is possible over anything.
-/

namespace Kaleidoscope.ExprReader

/-- A phase of the reader, with some operands pending below those that it knows of. -/
def Phase.over (below : List Pending) : Phase → Phase
  | .start => .start
  | .operand before => .operand (before ++ below)
  | .name before word => .name (before ++ below) word
  | .opened before callee => .opened (before ++ below) callee
  | .operator before last => .operator (before ++ below) last

/-- A frame with some operands pending below those that it knows of. -/
def Frame.over (below : List Pending) : Frame → Frame
  | .group before => .group (before ++ below)
  | .argument before callee done => .argument (before ++ below) callee done

/-- What is pending below the innermost expression, when everything is put over some pending
operands: they belong to the outermost expression. -/
def pendingBelow (below : List Pending) : List Frame → List Pending
  | [] => below
  | _ :: _ => []

/-- A stack of frames over another one, with some operands pending between them. -/
def stackOver (below : List Pending) (stack : List Frame) : List Frame → List Frame
  | [] => stack
  | frame :: frames => frame.over (pendingBelow below frames) :: stackOver below stack frames

/-- A state over some pending operands and a stack. -/
def State.over (below : List Pending) (stack : List Frame) (state : State) : State :=
  ⟨state.phase.over (pendingBelow below state.stack), stackOver below stack state.stack,
    state.depth⟩

/-- Whether the outermost expression of a state has begun. -/
def State.Begun (state : State) : Prop := state.phase = .start → state.stack ≠ []

/-- An operand that is due is read alike over anything. -/
theorem atOperand_over {before : List Pending} {frames : List Frame} {depth : Nat}
    {lexeme : Lexeme} {next : State} (h : atOperand before frames depth lexeme = .shift next)
    (below : List Pending) (stack : List Frame) :
    atOperand (before ++ pendingBelow below frames) (stackOver below stack frames) depth lexeme =
        .shift (next.over below stack) ∧ next.Begun := by
  unfold atOperand at h ⊢
  split at h <;> cases h
  · exact ⟨rfl, by simp [State.Begun]⟩
  · exact ⟨rfl, by simp [State.Begun]⟩
  · exact ⟨rfl, fun _ => List.cons_ne_nil _ _⟩

/-- An expression inside another one begins alike over anything. -/
theorem atStart_over {config : Config} {frame : Frame} {frames : List Frame} {depth : Nat}
    {lexeme : Lexeme} {next : State}
    (h : atStart config (frame :: frames) depth lexeme = .shift next) (below : List Pending)
    (stack : List Frame) :
    atStart config (stackOver below stack (frame :: frames)) depth lexeme =
        .shift (next.over below stack) ∧ next.Begun := by
  unfold atStart at h ⊢
  split at h
  · cases h
  · next hdepth =>
    rw [if_neg hdepth]
    exact atOperand_over h below stack

/-- An expression inside another one ends alike over anything. -/
theorem atEnd_over {expr : Expr} {frames : List Frame} {depth : Nat} {lexeme : Lexeme}
    {next : State} (h : atEnd expr frames depth lexeme = .shift next) (below : List Pending)
    (stack : List Frame) :
    atEnd expr (stackOver below stack frames) depth lexeme = .shift (next.over below stack) ∧
      next.Begun := by
  cases frames with
  | nil => cases h
  | cons frame frames =>
    cases frame with
    | group before =>
      simp only [atEnd, stackOver, Frame.over] at h ⊢
      split at h <;> cases h
      exact ⟨rfl, by simp [State.Begun]⟩
    | argument before callee done =>
      simp only [atEnd, stackOver, Frame.over] at h ⊢
      split at h <;> cases h
      · exact ⟨rfl, by simp [State.Begun]⟩
      · exact ⟨rfl, fun _ => List.cons_ne_nil _ _⟩

/-- What follows an operand is read alike over anything. -/
theorem atOperator_over {config : Config} {before : List Pending} {last : Expr}
    {frames : List Frame} {depth : Nat} {lexeme : Lexeme} {next : State}
    (h : atOperator config before last frames depth lexeme = .shift next) (below : List Pending)
    (stack : List Frame) :
    atOperator config (before ++ pendingBelow below frames) last (stackOver below stack frames)
        depth lexeme = .shift (next.over below stack) ∧ next.Begun := by
  unfold atOperator at h ⊢
  split at h
  · cases h
    exact ⟨rfl, by simp [State.Begun]⟩
  · cases frames with
    | nil => cases h
    | cons frame frames =>
      -- Only an expression inside another one can end here, and nothing below belongs to it.
      rw [pendingBelow, List.append_nil]
      exact atEnd_over h below stack

/-- What follows a name is read alike over anything. -/
theorem atName_over {config : Config} {before : List Pending} {name : String}
    {frames : List Frame} {depth : Nat} {lexeme : Lexeme} {next : State}
    (h : atName config before name frames depth lexeme = .shift next) (below : List Pending)
    (stack : List Frame) :
    atName config (before ++ pendingBelow below frames) name (stackOver below stack frames) depth
        lexeme = .shift (next.over below stack) ∧ next.Begun := by
  unfold atName at h ⊢
  split at h
  · cases h
    exact ⟨rfl, by simp [State.Begun]⟩
  · exact atOperator_over h below stack

/-- What follows the parenthesis of a call is read alike over anything. -/
theorem atOpened_over {config : Config} {before : List Pending} {callee : String}
    {frames : List Frame} {depth : Nat} {lexeme : Lexeme} {next : State}
    (h : atOpened config before callee frames depth lexeme = .shift next) (below : List Pending)
    (stack : List Frame) :
    atOpened config (before ++ pendingBelow below frames) callee (stackOver below stack frames)
        depth lexeme = .shift (next.over below stack) ∧ next.Begun := by
  unfold atOpened at h ⊢
  split at h
  · cases h
    exact ⟨rfl, by simp [State.Begun]⟩
  · exact atStart_over h below stack

/-- A token that is used up is used up alike over anything. -/
theorem move_over {config : Config} {state next : State} {lexeme : Lexeme}
    (h : move config state lexeme = .shift next) (hbegun : state.Begun) (below : List Pending)
    (stack : List Frame) :
    move config (state.over below stack) lexeme = .shift (next.over below stack) ∧
      next.Begun := by
  obtain ⟨phase, frames, depth⟩ := state
  cases phase with
  | start =>
    cases frames with
    | nil => exact absurd rfl (hbegun rfl)
    | cons frame frames => exact atStart_over h below stack
  | operand before => exact atOperand_over h below stack
  | name before word => exact atName_over h below stack
  | opened before callee => exact atOpened_over h below stack
  | operator before last => exact atOperator_over h below stack

/-- A run that does not go back to what surrounds it is possible over anything. -/
theorem moves_over {config : Config} {state next : State} {lexemes : List Lexeme}
    (h : (machine config).moves state lexemes = .shift next) (hbegun : state.Begun)
    (below : List Pending) (stack : List Frame) :
    (machine config).moves (state.over below stack) lexemes = .shift (next.over below stack) := by
  induction lexemes generalizing state with
  | nil =>
    cases h
    rfl
  | cons lexeme lexemes ih =>
    obtain ⟨middle, hmove, hrest⟩ := Machine.exists_of_moves_cons h
    obtain ⟨hover, hmiddle⟩ := move_over hmove hbegun below stack
    have hover : (machine config).move (state.over below stack) lexeme = _ := hover
    rw [Machine.moves_cons_of_shift hover]
    exact ih hrest hmiddle

end Kaleidoscope.ExprReader
