import Kaleidoscope.Proofs.FirstError
import Kaleidoscope.Proofs.Joining
import Kaleidoscope.Proofs.Pulling
import Kaleidoscope.Proofs.Refusals
import Mathlib.Data.List.DropRight

/-!
# Where tokens are

A cursor counts lines and columns while it goes along. What it counts is told by the characters in
front alone: a line begins behind each line feed, and columns are counted from there. The main
statement says that each token is at the place of its first character, for every stream and as often
as a token is asked for, that the places of the tokens go forward, and that every error of every
reading says the place of one of the tokens, the one that the reading has stopped at.
-/

namespace Kaleidoscope

namespace Position

/-- The place behind as many of some characters as an offset says: the line is told by the line
feeds among them, and the column by what is behind the last of these. -/
def ofOffset (chars : List Char) (offset : Nat) : Position :=
  ⟨1 + (chars.take offset).count '\n',
    1 + ((chars.take offset).rtakeWhile (· != '\n')).length⟩

/-- Characters lead from the first place to the one at the offset that is their number. -/
theorem first_past (front behind : List Char) :
    first.past front = ofOffset (front ++ behind) front.length := by
  have hcolumn : (first.past front).column = 1 + (front.rtakeWhile (· != '\n')).length := by
    induction front using List.reverseRecOn with
    | nil => rfl
    | append_singleton front c ih =>
      rw [past_append, past_cons, past_nil, after]
      by_cases hc : c = '\n'
      · rw [if_pos hc, List.rtakeWhile_concat, if_neg (by rw [hc]; decide)]
        rfl
      · rw [if_neg hc, List.rtakeWhile_concat, if_pos (bne_iff_ne.2 hc), List.length_append,
          ← Nat.add_assoc, ← ih]
        rfl
  have hline : (first.past front).line = 1 + front.count '\n' := line_past first front
  rw [ofOffset, List.take_left, ← hcolumn, ← hline]

example : ofOffset ['a', '\n', 'b', 'c'] 3 = ⟨2, 2⟩ := by decide

end Position

namespace Division

/-- How many characters are in front of each token of a divided text with some in front of it. -/
def offsets (front : Nat) : Division → List Nat
  | ending _ => []
  | next gap spelling rest =>
    (front + gap.length) :: rest.offsets (front + gap.length + spelling.chars.length)

end Division

/-- The token that comes from a stream behind a number of others, the end of input being one as
often as it is asked for. -/
def CharStream.lexeme {σ : Type} [CharStream σ] (source : σ) (count : Nat) : Lexeme :=
  ((Cursor.start source).afterTokens count).scan.lexeme

namespace Cursor

variable {σ : Type} [CharStream σ] {cursor : Cursor σ}

/-- A cursor that has passed some characters finds the tokens of a divided text behind them, each at
its offset, and the end of input at the end from then on. -/
theorem Stands.lexeme_afterTokens {front : List Char} {division : Division}
    (hvalid : division.Valid) (h : cursor.Stands division.chars (Position.first.past front))
    (count : Nat) :
    (cursor.afterTokens count).scan.lexeme =
      ⟨division.tokens.getD count .endOfInput, Position.ofOffset (front ++ division.chars)
        ((division.offsets front.length).getD count (front ++ division.chars).length)⟩ := by
  induction division generalizing cursor front count with
  | ending gap =>
    obtain ⟨hlexeme, hend⟩ := h.scan_end hvalid
    have hplace : (Position.first.past front).past gap =
        Position.ofOffset (front ++ gap) (front ++ gap).length := by
      rw [← Position.past_append, Position.first_past (front ++ gap) [], List.append_nil]
    -- What is cut at the end is cut there again, so the number of requests does not matter.
    have hlater : ∀ count : Nat, (cursor.afterTokens count).scan.lexeme =
          ⟨.endOfInput, (Position.first.past front).past gap⟩ := by
      intro count
      induction count with
      | zero => exact hlexeme
      | succ count ih => rw [afterTokens, scan_cursor_scan (by rw [ih]), ih]
    rw [hlater, hplace]
    rfl
  | next gap spelling rest ih =>
    obtain ⟨hgap, hfits, hrest⟩ := hvalid
    obtain ⟨hlexeme, hstands⟩ := h.scan hgap hfits
    have hchars : front ++ (Division.next gap spelling rest).chars =
        front ++ gap ++ spelling.chars ++ rest.chars := by
      simp only [Division.chars, List.append_assoc]
    cases count with
    | zero =>
      rw [afterTokens, hlexeme, hchars, ← Position.past_append,
        Position.first_past (front ++ gap) (spelling.chars ++ rest.chars), List.length_append,
        ← List.append_assoc]
      rfl
    | succ count =>
      rw [← Position.past_append, ← List.append_assoc] at hstands
      rw [afterTokens_succ, ih hrest hstands, hchars, List.length_append, List.length_append]
      rfl

/-- A token is in front of the one that comes next. -/
theorem before_scan_scan (h : cursor.scan.lexeme.token ≠ .endOfInput) :
    cursor.scan.lexeme.position.Before cursor.scan.cursor.scan.lexeme.position := by
  obtain ⟨division, hvalid, hchars⟩ := Division.exists_valid cursor.chars
  have hstands : cursor.Stands division.chars cursor.place := ⟨hchars.symm, rfl⟩
  have hne : (Feed.ofScan cursor.scan).lookahead.token ≠ .endOfInput := h
  have hbefore := division.pairwise_tape cursor.place
  rw [← hstands.tape hvalid, Feed.tape_of_ne hne] at hbefore
  have hnext : cursor.scan.cursor.scan.lexeme ∈ (Feed.ofScan cursor.scan).advance.tape :=
    List.mem_of_head? (Feed.head?_tape _)
  exact (List.pairwise_cons.1 hbefore).1 _ hnext

end Cursor

namespace CharStream

variable {σ : Type} [CharStream σ]

/-- Each token of a stream is at its offset. -/
theorem lexeme_eq {source : σ} {division : Division} (hvalid : division.Valid)
    (hchars : division.chars = chars source) (count : Nat) :
    lexeme source count =
      ⟨division.tokens.getD count .endOfInput, Position.ofOffset (chars source)
        ((division.offsets 0).getD count (chars source).length)⟩ := by
  have hblank : (Cursor.start source).Stands (' ' :: division.chars) ⟨1, 0⟩ :=
    ⟨congrArg (' ' :: ·) hchars.symm, rfl⟩
  have hscan : ((Cursor.start source).afterTokens count).scan =
      ((Cursor.start source).advance.afterTokens count).scan := by
    cases count with
    | zero => exact Cursor.scan_start source
    | succ count => rw [Cursor.afterTokens_succ, Cursor.afterTokens_succ, Cursor.scan_start]
  have hstands : (Cursor.start source).advance.Stands division.chars (Position.first.past []) :=
    hblank.advance
  rw [lexeme, hscan, ← hchars]
  exact hstands.lexeme_afterTokens hvalid count

end CharStream

namespace Feed

variable {σ : Type} [CharStream σ] {config : Config} {feed : Feed σ}

/-- Whether a feed is in front of one of the tokens of a stream. -/
def IsAmong (source : σ) (feed : Feed σ) : Prop :=
  ∃ count : Nat, feed.Alike (ofScan ((Cursor.start source).afterTokens count).scan)

/-- A feed in front of a token of a stream is so when a token is discarded, and when it reports. -/
theorem kept_isAmong (source : σ) : Kept (IsAmong source) := by
  refine ⟨fun ⟨count, h⟩ => ⟨count + 1, h.advance⟩, fun {feed event} _ ⟨count, h⟩ => ⟨count, ?_⟩⟩
  obtain ⟨hlookahead, hchars, hplace⟩ := h
  exact ⟨hlookahead, hchars, hplace⟩

/-- An error of a reading names the token of the stream that the reading has stopped at. -/
theorem IsAmong.names_of_read {source : σ} (h : feed.IsAmong source) {construct : Construct}
    {error : SyntaxError} (herror : (feed.read config construct).result = some (.error error)) :
    ∃ count : Nat, (feed.read config construct).feed.lookahead = CharStream.lexeme source count ∧
      error.Names (CharStream.lexeme source count) := by
  obtain ⟨count, halike⟩ := (kept_isAmong source).read h construct
  have hnames := (explained_read config feed construct error herror).names
  rw [halike.lookahead_eq] at hnames
  exact ⟨count, halike.lookahead_eq, hnames⟩

/-- An error of a run names a token of the stream. -/
theorem IsAmong.names_of_run {source : σ} (h : feed.IsAmong source) {error : SyntaxError}
    (herror : .error error ∈ (feed.run config).outcomes) :
    ∃ count : Nat, error.Names (CharStream.lexeme source count) := by
  obtain ⟨before, hbefore, hform⟩ := (kept_isAmong source).exists_readForm h herror
  have hread : (before.read config .form).result = some (.error error) := hform
  obtain ⟨count, _, hnames⟩ := hbefore.names_of_read hread
  exact ⟨count, hnames⟩

end Feed

namespace CharStream

/-- The characters of any stream are divided into gaps and tokens in one way. Each token is cut at
the place that is told by the number of characters in front of it, and the end of input, as often as
it is asked for, at the one that is told by the number of all characters; every token but the end of
input is in front of the next one. An error, whatever is read in whatever state of a session, has
the place of such a token, which has not been used up, and so has every error of a run and the one
that ends a strict reading. -/
theorem lexeme_eq_ofOffset {σ : Type} [CharStream σ] (source : σ) :
    ∃ division : Division, (division.Valid ∧ division.chars = chars source) ∧
      (∀ other : Division, other.Valid → other.chars = chars source → other = division) ∧
      (∀ count : Nat,
        lexeme source count =
          ⟨division.tokens.getD count .endOfInput, Position.ofOffset (chars source)
            ((division.offsets 0).getD count (chars source).length)⟩ ∧
        ((lexeme source count).token ≠ .endOfInput →
          (lexeme source count).position.Before (lexeme source (count + 1)).position)) ∧
      ∀ (config : Config) (error : SyntaxError),
        (∀ (operations : List Session.Operation),
          let session := (Session.start source config).performAll operations
          (∀ construct : Construct, (session.read construct).result = some (.error error) →
            ∃ count : Nat, (session.read construct).session.lookahead = lexeme source count ∧
              error.Names (lexeme source count)) ∧
          (.error error ∈ session.run.result.outcomes →
            ∃ count : Nat, error.Names (lexeme source count))) ∧
        ((Feed.start source).readForms config [] = .error error →
          ∃ count : Nat, error.Names (lexeme source count)) := by
  obtain ⟨division, hvalid, hchars⟩ := Division.exists_valid (chars source)
  have hstart : (Feed.start source).IsAmong source := ⟨0, rfl, rfl, rfl⟩
  refine ⟨division, ⟨hvalid, hchars⟩, fun other hother hotherChars => ?_,
    fun count => ⟨lexeme_eq hvalid hchars count, Cursor.before_scan_scan⟩,
    fun config error => ⟨fun operations => ?_, fun herror => ?_⟩⟩
  · exact hother.eq_of_chars hvalid (hotherChars.trans hchars.symm)
  · intro session
    have hsession : session.feed.IsAmong source :=
      Session.kept_performAll (Feed.kept_isAmong source) hstart operations
    refine ⟨fun construct herror => ?_, hsession.names_of_run⟩
    rw [Session.read_eq] at herror ⊢
    exact hsession.names_of_read herror
  · exact hstart.names_of_run (Feed.mem_outcomes_of_readForms herror)

end CharStream

end Kaleidoscope
