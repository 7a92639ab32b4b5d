import Kaleidoscope.Proofs.Machine

/-!
# The tokens in front of a reader

All tokens that a feed has in front of it, the end of input being the last. Whatever is read from a
feed is read from the front of these tokens, and leaves the others.
-/

namespace Kaleidoscope

namespace Feed

variable {σ : Type} [CharStream σ] {feed rest : Feed σ}

/-- The tokens from the lookahead on, up to the end of input, which is the last of them. -/
def tape (feed : Feed σ) : List Lexeme :=
  if _h : feed.lookahead.token.isEnd then [feed.lookahead]
  else feed.lookahead :: feed.advance.tape
termination_by feed.size
decreasing_by exact size_advance_lt fun hend => _h ((Token.isEnd_iff _).2 hend)

/-- The tokens from the lookahead on, without the end of input. -/
def lexemes (feed : Feed σ) : List Lexeme := feed.tape.dropLast

/-- At the end of input no other token comes. -/
theorem tape_of_end (h : feed.lookahead.token = .endOfInput) : feed.tape = [feed.lookahead] := by
  rw [tape]
  exact dif_pos ((Token.isEnd_iff _).2 h)

/-- A token before the end of input is in front of those that come when it is discarded. -/
theorem tape_of_ne (h : feed.lookahead.token ≠ .endOfInput) :
    feed.tape = feed.lookahead :: feed.advance.tape := by
  rw [tape]
  exact dif_neg (mt (Token.isEnd_iff _).1 h)

/-- The lookahead is the first token. -/
theorem head?_tape (feed : Feed σ) : feed.tape.head? = some feed.lookahead := by
  by_cases h : feed.lookahead.token = .endOfInput
  · rw [tape_of_end h]
    rfl
  · rw [tape_of_ne h]
    rfl

/-- There always is a token. -/
theorem tape_ne_nil (feed : Feed σ) : feed.tape ≠ [] := by
  intro h
  have hhead := head?_tape feed
  rw [h] at hhead
  cases hhead

/-- The first token is the lookahead. -/
theorem lookahead_of_tape {lexeme : Lexeme} {tail : List Lexeme}
    (h : feed.tape = lexeme :: tail) : feed.lookahead = lexeme := by
  have hhead := head?_tape feed
  rw [h, List.head?_cons, Option.some.injEq] at hhead
  exact hhead.symm

/-- What is discarded is not in front of the reader any more. -/
theorem tape_advance {lexeme : Lexeme} {tail : List Lexeme} (h : feed.tape = lexeme :: tail)
    (hne : lexeme.token ≠ .endOfInput) : feed.advance.tape = tail := by
  obtain rfl := lookahead_of_tape h
  rw [tape_of_ne hne] at h
  exact (List.cons.inj h).2

/-- The tokens on a way are in front of those where it leads to. -/
theorem Leads.tape_eq {lexemes : List Lexeme} (h : Leads feed lexemes rest) :
    feed.tape = lexemes ++ rest.tape := by
  induction h with
  | here => rfl
  | ahead hne _ ih => rw [tape_of_ne hne, ih, List.cons_append]

/-- At the end of input no token is left. -/
theorem lexemes_of_end (h : feed.lookahead.token = .endOfInput) : feed.lexemes = [] := by
  rw [lexemes, tape_of_end h]
  rfl

/-- A token before the end of input is the first of those that are left. -/
theorem lexemes_of_ne (h : feed.lookahead.token ≠ .endOfInput) :
    feed.lexemes = feed.lookahead :: feed.advance.lexemes := by
  rw [lexemes, tape_of_ne h]
  exact List.dropLast_cons_of_ne_nil (tape_ne_nil _)

/-- The tokens on a way are the first of those that are left. -/
theorem Leads.lexemes_eq {lexemes : List Lexeme} (h : Leads feed lexemes rest) :
    feed.lexemes = lexemes ++ rest.lexemes := by
  induction h with
  | here => rfl
  | ahead hne _ ih => rw [lexemes_of_ne hne, ih, List.cons_append]

/-- There is one way only from a feed to another one. -/
theorem Leads.unique {lexemes lexemes' : List Lexeme} (h : Leads feed lexemes rest)
    (h' : Leads feed lexemes' rest) : lexemes = lexemes' :=
  List.append_cancel_right (h.tape_eq.symm.trans h'.tape_eq)

/-- The tokens before a feed's lookahead are those of the listing from a cursor on. -/
theorem lexemes_ofScan (cursor : Cursor σ) (done : List Lexeme) :
    cursor.lexemes done = done.reverse ++ (ofScan cursor.scan).lexemes := by
  fun_induction Cursor.lexemes done cursor with
  | case1 done cursor scan h =>
    have hend : (ofScan scan).lookahead.token = .endOfInput := (Token.isEnd_iff _).1 h
    rw [lexemes_of_end hend, List.append_nil]
  | case2 done cursor scan h ih =>
    have hne : (ofScan scan).lookahead.token ≠ .endOfInput := mt (Token.isEnd_iff _).2 h
    have hlexemes : (ofScan scan).lexemes = scan.lexeme :: (ofScan scan.cursor.scan).lexemes :=
      lexemes_of_ne hne
    rw [ih, hlexemes, List.reverse_cons, List.append_assoc, List.singleton_append]

end Feed

end Kaleidoscope
