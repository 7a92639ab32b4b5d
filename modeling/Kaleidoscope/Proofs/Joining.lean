import Kaleidoscope.Proofs.Division

/-!
# Texts behind one another

Where the tokens of two texts are when one text follows the other. Tokens and gaps that could go on
at the end of the first text must not do so in the second one. The main statements give the tokens
of the whole: those of the first text where they are, and those of the second one moved down and to
the right by the first.
-/

namespace Kaleidoscope

namespace Position

/-- Whether a place comes before another one. -/
def Before (place other : Position) : Prop :=
  place.line < other.line ∨ place.line = other.line ∧ place.column < other.column

/-- No place comes before itself. -/
theorem Before.ne {place other : Position} (h : place.Before other) : place ≠ other := by
  rintro rfl
  rcases h with h | ⟨_, h⟩
  · exact Nat.lt_irrefl _ h
  · exact Nat.lt_irrefl _ h

/-- What comes before a place comes before those behind it. -/
theorem Before.trans {place middle other : Position} (h : place.Before middle)
    (h' : middle.Before other) : place.Before other := by
  simp only [Before] at *
  omega

/-- A character leads forward. -/
theorem before_after (place : Position) (c : Char) : place.Before (place.after c) := by
  unfold after
  split
  · exact .inl (Nat.lt_succ_self _)
  · exact .inr ⟨rfl, Nat.lt_succ_self _⟩

/-- One character or more lead forward. -/
theorem before_past (place : Position) {chars : List Char} (h : chars ≠ []) :
    place.Before (place.past chars) := by
  induction chars generalizing place with
  | nil => exact absurd rfl h
  | cons c rest ih =>
    rw [past_cons]
    cases rest with
    | nil => exact before_after place c
    | cons d rest => exact (before_after place c).trans (ih (place.after c) (List.cons_ne_nil _ _))

/-- Each line feed leads one line down. -/
theorem line_past (place : Position) (chars : List Char) :
    (place.past chars).line = place.line + chars.count '\n' := by
  induction chars generalizing place with
  | nil => rfl
  | cons c rest ih =>
    rw [past_cons, ih, after]
    by_cases hc : c = '\n'
    · subst hc
      rw [if_pos rfl, List.count_cons_self]
      exact Nat.succ_add_eq_add_succ place.line (rest.count '\n')
    · rw [if_neg hc, List.count_cons_of_ne hc]

/-- Behind a line feed a line begins. -/
theorem past_concat_lineFeed (place : Position) (chars : List Char) :
    place.past (chars ++ ['\n']) = ⟨place.line + chars.count '\n' + 1, 1⟩ := by
  rw [past_append, ← line_past]
  rfl

/-- The place some lines further down. -/
def down (lines : Nat) (place : Position) : Position := ⟨place.line + lines, place.column⟩

/-- Characters lead from a place further down to one as much further down. -/
theorem past_down (lines : Nat) (place : Position) (chars : List Char) :
    (place.down lines).past chars = (place.past chars).down lines := by
  have hafter : ∀ (place : Position) (c : Char),
      (place.down lines).after c = (place.after c).down lines := by
    intro place c
    simp only [after, down]
    split
    · rw [Nat.add_right_comm]
    · rfl
  induction chars generalizing place with
  | nil => rfl
  | cons c rest ih => rw [past_cons, past_cons, hafter, ih]

end Position

namespace Division

/-- The tokens of a text come before its end. -/
theorem before_of_mem_lexemes {division : Division} {place : Position} {lexeme : Lexeme}
    (h : lexeme ∈ division.lexemes place) :
    lexeme.token ≠ .endOfInput ∧ lexeme.position.Before (place.past division.chars) := by
  induction division generalizing place with
  | ending gap => cases h
  | next gap spelling rest ih =>
    rw [chars, ← List.append_assoc, Position.past_append]
    rcases List.mem_cons.1 h with rfl | h
    · refine ⟨spelling.token_ne_endOfInput, ?_⟩
      rw [← Position.past_append, List.append_assoc, Position.past_append]
      refine Position.before_past _ fun hnil => ?_
      exact spelling.chars_ne_nil (List.append_eq_nil_iff.1 hnil).1
    · exact ih h

/-- Some characters of a text are in front of each of its tokens. -/
theorem exists_past_of_mem_tape {division : Division} {place : Position} {lexeme : Lexeme}
    (h : lexeme ∈ division.tape place) : ∃ front, lexeme.position = place.past front := by
  induction division generalizing place with
  | ending gap =>
    rw [List.mem_singleton.1 h]
    exact ⟨gap, rfl⟩
  | next gap spelling rest ih =>
    rw [tape_next] at h
    rcases List.mem_cons.1 h with rfl | h
    · exact ⟨gap, rfl⟩
    · obtain ⟨front, hfront⟩ := ih h
      exact ⟨gap ++ spelling.chars ++ front, by rw [hfront, ← Position.past_append]⟩

/-- The tokens of a text are one behind the other. -/
theorem pairwise_tape (division : Division) (place : Position) :
    (division.tape place).Pairwise fun lexeme other =>
      lexeme.position.Before other.position := by
  induction division generalizing place with
  | ending gap => exact List.pairwise_singleton _ _
  | next gap spelling rest ih =>
    rw [tape_next]
    refine List.Pairwise.cons (fun other hmem => ?_) (ih _)
    obtain ⟨front, hfront⟩ := exists_past_of_mem_tape hmem
    rw [hfront, Position.past_append, ← Position.past_append _ spelling.chars front]
    exact Position.before_past _ (List.append_ne_nil_of_left_ne_nil spelling.chars_ne_nil _)

/-- The tokens of a text that begins further down are as much further down. -/
theorem tape_down (lines : Nat) (division : Division) (place : Position) :
    division.tape (place.down lines) =
      (division.tape place).map fun lexeme => ⟨lexeme.token, lexeme.position.down lines⟩ := by
  have hlexemes : ∀ place : Position, division.lexemes (place.down lines) =
      (division.lexemes place).map fun lexeme => ⟨lexeme.token, lexeme.position.down lines⟩ := by
    induction division with
    | ending gap => exact fun place => rfl
    | next gap spelling rest ih =>
      intro place
      simp only [lexemes, Position.past_down, ih, List.map_cons]
  simp only [tape, hlexemes, Position.past_down, List.map_append, List.map_cons, List.map_nil]

/-- A divided text with another one behind it. -/
def append (division other : Division) : Division :=
  match division with
  | ending gap => other.behindGap gap
  | next gap spelling rest => next gap spelling (rest.append other)

/-- The characters of the second text follow those of the first one. -/
theorem chars_append (division other : Division) :
    (division.append other).chars = division.chars ++ other.chars := by
  induction division with
  | ending gap => exact chars_behindGap gap other
  | next gap spelling rest ih => simp only [append, chars, ih, List.append_assoc]

/-- The tokens of the second text follow those of the first one. -/
theorem tape_append (division other : Division) (place : Position) :
    (division.append other).tape place =
      division.lexemes place ++ other.tape (place.past division.chars) := by
  induction division generalizing place with
  | ending gap => exact tape_behindGap gap other place
  | next gap spelling rest ih =>
    rw [append, tape_next, ih, lexemes, chars, ← List.append_assoc,
      Position.past_append place (gap ++ spelling.chars), List.cons_append]

/-- Two divided texts are divided together as they are, unless the second one goes on with a word, a
numeral or a comment at the end of the first. -/
theorem Valid.append {division other : Division} (h : division.Valid) (h' : other.Valid)
    (hword : Stops Cursor.isWordPart other.chars) (hpart : Stops Numeral.isPart other.chars)
    (hcomment : Stops Cursor.isComment other.chars) : (division.append other).Valid := by
  induction division with
  | ending gap =>
    cases other with
    | ending gap' =>
      refine IsGap.append h h' ?_
      rw [List.append_nil]
      exact hcomment
    | next gap' spelling rest => exact ⟨IsGap.append h h'.1 hcomment, h'.2⟩
  | next gap spelling rest ih =>
    obtain ⟨hgap, hfits, hrest⟩ := h
    refine ⟨?_, ?_, ih hrest⟩
    · rw [chars_append, ← List.append_assoc]
      exact hgap.extend hcomment
    · rw [chars_append]
      exact hfits.extend hword hpart

end Division

end Kaleidoscope
