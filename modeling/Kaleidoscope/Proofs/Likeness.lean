import Kaleidoscope.Proofs.Layout
import Kaleidoscope.Proofs.Pulling
import Kaleidoscope.Proofs.Refusals

/-!
# What the result of an operation depends on

Feeds are alike that have the same lookahead, and the same characters behind it at the same place.
Every reading has the same result on feeds that are alike, and leaves feeds that are. So what a
session gives under a configuration depends on nothing else, and however it has come to where it is,
there is a session that has just begun and gives the same: its text has blanks in the place of all
that the other one has used up.
-/

namespace Kaleidoscope

variable {σ τ : Type}

namespace Feed

section Outcomes

variable [CharStream σ] [CharStream τ] {α β : Type}

/-- Whether two runs of a machine have the same result, and leave feeds that are alike. -/
structure Outcome.Alike {R : Type} (outcome : Outcome σ R) (other : Outcome τ R) : Prop where
  /-- The results are the same. -/
  result_eq : outcome.result = other.result
  /-- The feeds are alike. -/
  feed : outcome.feed.Alike other.feed

/-- Readings that are alike stay so when the same is made of both. -/
theorem Outcome.Alike.map {outcome : Read σ α} {other : Read τ α} (h : outcome.Alike other)
    (f : α → β) : (outcome.map f).Alike (other.map f) :=
  ⟨congrArg (Except.map f) h.result_eq, h.feed⟩

/-- Readings that are alike are so as readings that may find nothing. -/
theorem Outcome.Alike.whole {outcome : Read σ α} {other : Read τ α} (h : outcome.Alike other) :
    outcome.whole.Alike other.whole := ⟨congrArg some h.result_eq, h.feed⟩

/-- Readings behind others that are alike are so if they are on all feeds that are. -/
theorem Outcome.Alike.andThen {outcome : Read σ α} {other : Read τ α} (h : outcome.Alike other)
    {next : α → Feed σ → Read σ β} {next' : α → Feed τ → Read τ β}
    (hnext : ∀ (value : α) (feed : Feed σ) (feed' : Feed τ), feed.Alike feed' →
      (next value feed).Alike (next' value feed')) :
    (outcome.andThen next).Alike (other.andThen next') := by
  obtain ⟨result, feed⟩ := outcome
  obtain ⟨result', feed'⟩ := other
  obtain ⟨rfl, hfeed⟩ := h
  cases result with
  | ok value => exact hnext value feed feed' hfeed
  | error error => exact ⟨rfl, hfeed⟩

end Outcomes

namespace Alike

variable [CharStream σ] [CharStream τ] {feed : Feed σ} {other : Feed τ} {config : Config}

/-- A report changes nothing but the log. -/
theorem report (h : feed.Alike other) (event event' : Event) :
    (feed.report event).Alike (other.report event') := ⟨h.lookahead_eq, h.chars_eq, h.place_eq⟩

/-- Two feeds are alike when both are alike to a third one. -/
theorem trans {υ : Type} [CharStream υ] {third : Feed υ} (h : feed.Alike other)
    (h' : other.Alike third) : feed.Alike third :=
  ⟨h.lookahead_eq.trans h'.lookahead_eq, h.chars_eq.trans h'.chars_eq,
    h.place_eq.trans h'.place_eq⟩

/-- A machine does the same on feeds that are alike. -/
theorem drive {S R : Type} (h : feed.Alike other) (machine : Machine S R) (state : S) :
    (feed.drive machine state).Alike (other.drive machine state) := by
  fun_induction Feed.drive machine state feed generalizing other with
  | case1 state feed next hmove ih =>
    rw [h.lookahead_eq] at hmove
    rw [drive_of_shift hmove]
    exact ih h.advance
  | case2 state feed result hmove =>
    rw [h.lookahead_eq] at hmove
    rw [drive_of_stop hmove]
    exact ⟨rfl, h⟩

/-- An expression is read alike. -/
theorem readExpr (h : feed.Alike other) :
    (feed.readExpr config).Alike (other.readExpr config) := h.drive _ _

/-- Feeds that are alike read a prototype alike. -/
theorem readPrototype (h : feed.Alike other) : feed.readPrototype.Alike other.readPrototype :=
  h.drive _ _

/-- Feeds that are alike read a definition alike. -/
theorem readDefinition (h : feed.Alike other) :
    (feed.readDefinition config).Alike (other.readDefinition config) :=
  h.advance.readPrototype.andThen fun _ _ _ hbody => hbody.readExpr.map _

/-- Feeds that are alike read a form alike. -/
theorem readForm (h : feed.Alike other) :
    (feed.readForm config).Alike (other.readForm config) := by
  have hskip : feed.skipSeparators.Alike other.skipSeparators := (h.drive _ _).feed
  rw [Feed.readForm, Feed.readForm, readFormHere, readFormHere, ← hskip.lookahead_eq]
  split
  · exact ⟨rfl, hskip⟩
  · exact (hskip.readDefinition.map _).whole
  · exact (hskip.advance.readPrototype.map _).whole
  · exact ((hskip.readExpr.map _).map _).whole

/-- Feeds that are alike read any construct alike. -/
theorem read (h : feed.Alike other) (construct : Construct) :
    (feed.read config construct).Alike (other.read config construct) := by
  cases construct with
  | expr => exact h.readExpr.whole
  | prototype => exact h.readPrototype.whole
  | definition => exact h.readDefinition.whole
  | external => exact h.advance.readPrototype.whole
  | topLevelExpr => exact (h.readExpr.map _).whole
  | form => exact h.readForm

/-- Runs on feeds that are alike have the same outcomes, and leave feeds that are. -/
theorem runFrom (h : feed.Alike other) (summary : Summary)
    (done : List (Except SyntaxError Form)) :
    (feed.runFrom config summary done).outcomes = (other.runFrom config summary done).outcomes ∧
      (feed.runFrom config summary done).feed.Alike (other.runFrom config summary done).feed := by
  fun_induction Feed.runFrom config summary done feed generalizing other
  case case1 summary done feed read hresult =>
    obtain ⟨hsame, hfeed⟩ := h.readForm
    have hread : other.readForm config = ⟨none, (other.readForm config).feed⟩ := by
      rw [← hresult, hsame]
    rw [runFrom_eq other, hread]
    exact ⟨rfl, hfeed⟩
  case case2 summary done feed read form hresult ih =>
    obtain ⟨hsame, hfeed⟩ := h.readForm
    have hread : other.readForm config = ⟨some (.ok form), (other.readForm config).feed⟩ := by
      rw [← hresult, hsame]
    rw [runFrom_eq other, hread]
    exact ih (hfeed.report _ _)
  case case3 summary done feed read error hresult ih =>
    obtain ⟨hsame, hfeed⟩ := h.readForm
    have hread : other.readForm config =
        ⟨some (.error error), (other.readForm config).feed⟩ := by
      rw [← hresult, hsame]
    rw [runFrom_eq other, hread]
    exact ih (hfeed.report _ _).advance

end Alike

end Feed

namespace Cursor

variable [CharStream σ] {cursor : Cursor σ}

/-- Blanks in front of a cursor have no effect but to move it. -/
theorem Stands.exists_scan_blanks {blanks rest : List Char} {place : Position}
    (hblanks : ∀ c ∈ blanks, Unicode.isWhiteSpace c = true)
    (h : cursor.Stands (blanks ++ rest) place) :
    ∃ behind : Cursor σ, behind.Stands rest (place.past blanks) ∧ behind.scan = cursor.scan := by
  induction blanks generalizing cursor place with
  | nil => exact ⟨cursor, h, rfl⟩
  | cons c blanks ih =>
    obtain ⟨hc, hblanks⟩ := List.forall_mem_cons.1 hblanks
    obtain ⟨behind, hstands, hscan⟩ := ih hblanks h.advance
    refine ⟨behind, hstands, hscan.trans ?_⟩
    rw [Cursor.scan, Cursor.scan, skipGap_of_cons h.chars_eq hc]

/-- Behind a token, or the end of input, a cursor has passed some characters. -/
theorem Stands.exists_scan {chars : List Char} {front : List Char}
    (h : cursor.Stands chars (Position.first.past front)) :
    ∃ (front' chars' : List Char),
      cursor.scan.cursor.Stands chars' (Position.first.past front') := by
  obtain ⟨division, hvalid, rfl⟩ := Division.exists_valid chars
  cases division with
  | ending gap =>
    obtain ⟨_, hend⟩ := h.scan_end hvalid
    rw [← Position.past_append] at hend
    exact ⟨_, _, hend⟩
  | next gap spelling rest =>
    obtain ⟨_, hbehind⟩ := h.scan hvalid.1 hvalid.2.1
    rw [← Position.past_append] at hbehind
    exact ⟨_, _, hbehind⟩

end Cursor

/-- Some characters with blanks in the place of all but the ends of lines. -/
def blanked (chars : List Char) : List Char := chars.map fun c => if c = '\n' then '\n' else ' '

/-- Characters that are blanked are white space. -/
theorem isWhiteSpace_of_mem_blanked {chars : List Char} :
    ∀ c ∈ blanked chars, Unicode.isWhiteSpace c = true := by
  intro c hmem
  obtain ⟨d, _, rfl⟩ := List.mem_map.1 hmem
  split <;> decide

/-- Characters that are blanked lead as far as they did. -/
theorem Position.past_blanked (place : Position) (chars : List Char) :
    place.past (blanked chars) = place.past chars := by
  induction chars generalizing place with
  | nil => rfl
  | cons c chars ih =>
    have hafter : place.after (if c = '\n' then '\n' else ' ') = place.after c := by
      by_cases hc : c = '\n'
      · rw [if_pos hc, hc]
      · rw [if_neg hc, after, after, if_neg hc, if_neg (by decide)]
    rw [blanked, List.map_cons, past_cons, hafter, past_cons]
    exact ih _

namespace Feed

variable [CharStream σ] [CharStream τ]

/-- Cursors in front of the same characters at the same place cut tokens that are alike. -/
theorem alike_ofScan {cursor : Cursor σ} {other : Cursor τ} {chars : List Char} {place : Position}
    (h : cursor.Stands chars place) (h' : other.Stands chars place) :
    (ofScan cursor.scan).Alike (ofScan other.scan) := by
  have hbefore : Alike (⟨⟨.endOfInput, place⟩, cursor⟩ : Feed σ)
      (⟨⟨.endOfInput, place⟩, other⟩ : Feed τ) :=
    ⟨rfl, h.chars_eq.trans h'.chars_eq.symm, h.place_eq.trans h'.place_eq.symm⟩
  exact hbefore.advance

/-- A text begins as a feed does whose lookahead is cut behind some characters, if it has blanks in
their place. -/
theorem alike_start_blanked {cursor : Cursor σ} {front rest : List Char}
    (h : cursor.Stands rest (Position.first.past front)) :
    (ofScan cursor.scan).Alike (start (⟨blanked front ++ rest⟩ : Text)) := by
  have hstands : (Cursor.start (⟨blanked front ++ rest⟩ : Text)).advance.Stands
      (blanked front ++ rest) Position.first := by
    have hstart : (Cursor.start (⟨blanked front ++ rest⟩ : Text)).Stands
        (' ' :: (blanked front ++ rest)) ⟨1, 0⟩ :=
      ⟨congrArg (' ' :: ·) (CharStream.chars_text _), rfl⟩
    exact hstart.advance
  obtain ⟨behind, hbehind, hscan⟩ := hstands.exists_scan_blanks isWhiteSpace_of_mem_blanked
  rw [Position.past_blanked] at hbehind
  rw [start, Cursor.scan_start, ← hscan]
  exact alike_ofScan h hbehind

/-- Whether a feed is alike to one that begins with a text. -/
def IsFresh (feed : Feed σ) : Prop := ∃ text : Text, feed.Alike (start text)

/-- A feed is fresh when it begins. -/
theorem isFresh_start (source : σ) : (start source).IsFresh :=
  ⟨⟨CharStream.chars source⟩, alike_start (CharStream.chars_text _).symm⟩

/-- A fresh feed still is one when a token has been discarded, whatever has been used up and
reported. -/
theorem kept_isFresh : Kept (@IsFresh σ _) := by
  refine ⟨fun {feed} ⟨text, h⟩ => ?_, fun {feed event} _ ⟨text, h⟩ =>
    ⟨text, h.lookahead_eq, h.chars_eq, h.place_eq⟩⟩
  have hstart : (Cursor.start text).advance.Stands (CharStream.chars text)
      (Position.first.past []) := by
    have hstands : (Cursor.start text).Stands (' ' :: CharStream.chars text) ⟨1, 0⟩ := ⟨rfl, rfl⟩
    exact hstands.advance
  obtain ⟨front, rest, hbehind⟩ := hstart.exists_scan
  rw [← Cursor.scan_start] at hbehind
  exact ⟨_, h.advance.trans (alike_start_blanked hbehind)⟩

end Feed

namespace Session

variable [CharStream σ] [CharStream τ]

/-- Whether two sessions, on whatever streams, have the same tokens in front of them and the same
configuration. -/
structure Alike (session : Session σ) (other : Session τ) : Prop where
  /-- The feeds are alike. -/
  feed : session.feed.Alike other.feed
  /-- The configurations are the same. -/
  config_eq : session.config = other.config

/-- Whether two sessions give the same results, whatever is asked of them. -/
structure Agrees (session : Session σ) (other : Session τ) : Prop where
  /-- Every construct is read as the same, or fails with the same error. -/
  read_eq : ∀ construct, (session.read construct).result = (other.read construct).result
  /-- A run has the same outcomes. -/
  run_eq : session.run.result.outcomes = other.run.result.outcomes
  /-- A registration gives the same result. -/
  register_eq : ∀ c precedence,
    (session.register c precedence).result = (other.register c precedence).result
  /-- A removal gives the same result. -/
  remove_eq : ∀ c, (session.remove c).result = (other.remove c).result
  /-- The same token comes next when one has been discarded. -/
  lookahead_advance_eq : session.advance.lookahead = other.advance.lookahead

variable {session : Session σ} {other : Session τ}

omit [CharStream σ] [CharStream τ] in
/-- A registration depends on the configuration only. -/
theorem register_congr (h : session.config = other.config) (c : Char) (precedence : Int32) :
    (session.register c precedence).result = (other.register c precedence).result ∧
      (session.register c precedence).session.config =
        (other.register c precedence).session.config := by
  rw [register, register, h]
  split
  · exact ⟨rfl, rfl⟩
  · exact ⟨rfl, h⟩

/-- Sessions that are alike give the same results. -/
theorem Alike.agrees (h : session.Alike other) : session.Agrees other where
  read_eq construct := by
    rw [read_eq, read_eq, h.config_eq]
    exact (h.feed.read construct).result_eq
  run_eq := by
    rw [run, run, h.config_eq]
    exact (h.feed.runFrom .nothing []).1
  register_eq c precedence := (register_congr h.config_eq c precedence).1
  remove_eq c := by
    rw [remove, remove, h.config_eq]
  lookahead_advance_eq := h.feed.advance.lookahead_eq

/-- Sessions that are alike are so behind any operation. -/
theorem Alike.perform (h : session.Alike other) (operation : Operation) :
    (session.perform operation).Alike (other.perform operation) := by
  obtain ⟨feed, config⟩ := session
  obtain ⟨feed', config'⟩ := other
  obtain ⟨hfeed, rfl⟩ := h
  cases operation with
  | register c precedence =>
    refine ⟨?_, (@register_congr _ _ ⟨feed, config⟩ ⟨feed', config⟩ rfl c precedence).2⟩
    rw [Session.perform, Session.perform, feed_register, feed_register]
    exact hfeed
  | remove c => exact ⟨hfeed, rfl⟩
  | advance => exact ⟨hfeed.advance, rfl⟩
  | readExpr => exact ⟨hfeed.readExpr.feed, rfl⟩
  | readPrototype => exact ⟨hfeed.readPrototype.feed, rfl⟩
  | readDefinition => exact ⟨hfeed.readDefinition.feed, rfl⟩
  | readExtern => exact ⟨hfeed.advance.readPrototype.feed, rfl⟩
  | readTopLevelExpr => exact ⟨hfeed.readExpr.feed, rfl⟩
  | readForm => exact ⟨hfeed.readForm.feed, rfl⟩
  | run => exact ⟨(hfeed.runFrom .nothing []).2, rfl⟩

/-- Sessions that are alike are so behind any number of operations. -/
theorem Alike.performAll (h : session.Alike other) (operations : List Operation) :
    (session.performAll operations).Alike (other.performAll operations) := by
  induction operations generalizing session other with
  | nil => exact h
  | cons operation operations ih => exact ih (h.perform operation)

/-- However a session has come to where it is, one that begins with a text is alike. -/
theorem exists_alike_start (source : σ) (config : Config) (operations : List Operation) :
    ∃ text : Text, let session := (start source config).performAll operations
      session.Alike (start text session.config) := by
  have hstart : (start source config).feed.IsFresh := Feed.isFresh_start source
  obtain ⟨text, h⟩ := kept_performAll Feed.kept_isFresh hstart operations
  exact ⟨text, h, rfl⟩

end Session

end Kaleidoscope
