import Kaleidoscope.Proofs.Lines
import Kaleidoscope.Proofs.Operations

/-!
# How much of an input is taken

A line is taken from an input when the first character of it is asked for. A cursor has asked for
the character behind the token that it has cut, and that one is on the line of the token, the line
feed at the end of the line included, so no line below it has been taken. The main statement says
this of every token that is cut from an input, and of every session on it, whatever has been done
with the session.
-/

namespace Kaleidoscope

namespace Line

/-- The first lines of some bytes, each through its line feed. -/
def leading : Nat → List UInt8 → List UInt8
  | 0, _ => []
  | _ + 1, [] => []
  | number + 1, byte :: bytes =>
    byte :: leading (if byte = lineFeed then number else number + 1) bytes

/-- No lines are no bytes. -/
theorem leading_zero (bytes : List UInt8) : leading 0 bytes = [] := by rw [leading]

/-- One line more is the first one of what the lines before it leave. -/
theorem leading_succ {number : Nat} {bytes behind : List UInt8}
    (h : leading number bytes ++ behind = bytes) :
    leading (number + 1) bytes = leading number bytes ++ leading 1 behind := by
  induction bytes generalizing number with
  | nil =>
    obtain ⟨hfront, hbehind⟩ := List.append_eq_nil_iff.1 h
    rw [hfront, hbehind]
    rfl
  | cons byte bytes ih =>
    cases number with
    | zero =>
      rw [leading_zero, List.nil_append] at h
      rw [h, leading_zero, List.nil_append]
    | succ number =>
      rw [leading, List.cons_append, List.cons.injEq] at h
      have hrest := ih h.2
      rw [leading, leading, List.cons_append, List.cons.injEq]
      refine ⟨rfl, ?_⟩
      split at hrest
      · next hbyte => rw [if_pos hbyte, if_pos hbyte, hrest]
      · next hbyte => rw [if_neg hbyte, if_neg hbyte, hrest]

/-- The first line ends with the first line feed, or is everything when there is none. -/
theorem leading_one_cases (bytes : List UInt8) :
    (∃ front, lineFeed ∉ front ∧ leading 1 bytes = front ++ [lineFeed]) ∨
      lineFeed ∉ bytes ∧ leading 1 bytes = bytes := by
  induction bytes with
  | nil => exact .inr ⟨List.not_mem_nil, rfl⟩
  | cons byte bytes ih =>
    rw [leading]
    by_cases hbyte : byte = lineFeed
    · rw [if_pos hbyte, leading, hbyte]
      exact .inl ⟨[], List.not_mem_nil, rfl⟩
    · rw [if_neg hbyte]
      rcases ih with ⟨front, hnot, hfront⟩ | ⟨hnot, hbytes⟩
      · refine .inl ⟨byte :: front, ?_, by rw [hfront, List.cons_append]⟩
        exact List.not_mem_cons_of_ne_of_not_mem (Ne.symm hbyte) hnot
      · refine .inr ⟨?_, by rw [hbytes]⟩
        exact List.not_mem_cons_of_ne_of_not_mem (Ne.symm hbyte) hnot

/-- Bytes without a line feed belong to the first line. -/
theorem leading_append {front : List UInt8} (h : lineFeed ∉ front) (behind : List UInt8) :
    leading 1 (front ++ behind) = front ++ leading 1 behind := by
  induction front with
  | nil => rfl
  | cons byte front ih =>
    rw [List.mem_cons, not_or] at h
    obtain ⟨hbyte, hfront⟩ := h
    rw [List.cons_append, leading, if_neg (Ne.symm hbyte), ih hfront, List.cons_append]

/-- A portion with a line feed holds the rest of the first line. -/
theorem leading_of_split_some {portion rest : List UInt8} (h : (split portion).2 = some rest)
    (behind : List UInt8) : leading 1 (portion ++ behind) = (split portion).1 := by
  obtain ⟨front, hnot, rfl, hfront⟩ := split_of_some h
  rw [hfront, List.append_assoc, leading_append hnot, List.cons_append, leading, if_pos rfl,
    leading]

/-- A line that is taken is the first one, whatever the portions are. -/
theorem bytes_read (buffer : List UInt8) {events : List InputEvent}
    (h : ∀ event ∈ events, event.Continues) :
    (read buffer events).bytes = leading 1 (buffer ++ InputEvent.delivered events) := by
  fun_induction read buffer events with
  | case1 buffer events rest hsplit => exact (leading_of_split_some hsplit _).symm
  | case2 buffer hsplit =>
    rw [leading_append (split_of_none hsplit)]
    exact (List.append_nil buffer).symm
  | case3 buffer events hsplit ih =>
    rw [leading_append (split_of_none hsplit)]
    exact congrArg (buffer ++ ·) (ih (List.forall_mem_cons.1 h).2)
  | case4 buffer reason events hsplit => exact (List.forall_mem_cons.1 h).1.elim
  | case5 buffer events hsplit => exact absurd rfl (List.forall_mem_cons.1 h).1
  | case6 buffer byte portion events hsplit ih =>
    rw [leading_append (split_of_none hsplit)]
    exact congrArg (buffer ++ ·) (ih (List.forall_mem_cons.1 h).2)

end Line

namespace Lines

/-- Whether some characters are the last ones of a line: a line feed ends them, or there is none
and nothing comes behind them. -/
def EndsLine (chars : List Char) (behind : List UInt8) : Prop :=
  (∃ front, '\n' ∉ front ∧ chars = front ++ ['\n']) ∨ '\n' ∉ chars ∧ behind = []

/-- The characters of a line that has just been taken end as the line does. -/
theorem endsLine_decode {input : ByteInput}
    (h : ∀ event ∈ input.events, event.Continues) :
    EndsLine (Utf8.decode (Line.ofInput input).bytes) (Line.ofInput input).input.bytes := by
  have hline : (Line.ofInput input).BeginsWith input.bytes := Line.beginsWith_read input.buffer h
  have hbytes : (Line.ofInput input).bytes = Line.leading 1 input.bytes :=
    Line.bytes_read input.buffer h
  rcases Line.leading_one_cases input.bytes with ⟨front, hnot, hfront⟩ | ⟨hnot, hall⟩
  · rw [hbytes, hfront]
    exact .inl ⟨Utf8.decode front, Utf8.not_mem_decode hnot, Utf8.decode_lineFeed front⟩
  · refine .inr ⟨?_, ?_⟩
    · rw [hbytes, hall]
      exact Utf8.not_mem_decode hnot
    · have heq := hline.bytes_eq
      rw [hbytes, hall] at heq
      exact List.append_right_eq_self.1 heq

/-- Of the last characters of a line only the last one can be a line feed. -/
theorem EndsLine.tail {c d : Char} {rest : List Char} {behind : List UInt8}
    (h : EndsLine (c :: d :: rest) behind) : c ≠ '\n' ∧ EndsLine (d :: rest) behind := by
  rcases h with ⟨front, hnot, hfront⟩ | ⟨hnot, hbehind⟩
  · cases front with
    | nil => cases hfront
    | cons first front =>
      rw [List.cons_append, List.cons.injEq] at hfront
      rw [List.mem_cons, not_or] at hnot
      refine ⟨?_, .inl ⟨front, hnot.2, hfront.2⟩⟩
      rw [hfront.1]
      exact Ne.symm hnot.1
  · rw [List.mem_cons, not_or] at hnot
    exact ⟨Ne.symm hnot.1, .inr ⟨hnot.2, hbehind⟩⟩

/-- If the last character of a line is no line feed, nothing comes behind the line. -/
theorem EndsLine.eq_nil {c : Char} {behind : List UInt8} (h : EndsLine [c] behind)
    (hc : c ≠ '\n') : behind = [] := by
  rcases h with ⟨front, _, hfront⟩ | ⟨_, hbehind⟩
  · cases front with
    | nil => exact absurd (List.cons.inj hfront).1 hc
    | cons first front =>
      exact absurd (List.cons.inj hfront).2.symm (List.append_ne_nil_of_right_ne_nil _ (by decide))
  · exact hbehind

/-- Whether a stream has taken the first lines of some bytes and nothing else. -/
structure HasTaken (bytes : List UInt8) (number : Nat) (lines : Lines) : Prop where
  /-- It has taken as many bytes as they have. -/
  pulled_eq : CharStream.pulled lines = (Line.leading number bytes).length
  /-- The other lines are still to be had. -/
  bytes_eq : Line.leading number bytes ++ lines.input.bytes = bytes

/-- Whether a stream has taken the lines up to one on which the last character is that it has
delivered, or which the bytes end with. -/
structure OnLine (bytes : List UInt8) (number : Nat) (current? : Option Char) (lines : Lines) :
    Prop extends lines.HasTaken bytes number where
  /-- The input neither ends for the moment nor fails. -/
  continues : ∀ event ∈ lines.input.events, event.Continues
  /-- The character and those of its line that have not been delivered end the line. -/
  endsLine : ∀ c, current? = some c →
    lines.finished = false ∧ EndsLine (c :: lines.rest) lines.input.bytes

/-- In the beginning a stream has taken nothing, as if it had delivered a line feed before. -/
theorem onLine_ofEvents {events : List InputEvent} (h : ∀ event ∈ events, event.Continues) :
    (ofEvents events).OnLine (InputEvent.delivered events) 0 (some '\n') := by
  refine ⟨⟨?_, ?_⟩, h, fun c hc => ⟨rfl, .inl ⟨[], List.not_mem_nil, ?_⟩⟩⟩
  · rw [Line.leading_zero]
    rfl
  · rw [Line.leading_zero]
    rfl
  · cases hc
    rfl

/-- Behind a line feed a stream takes the next line, and behind any other character no more than it
has taken. -/
theorem OnLine.next {bytes : List UInt8} {number : Nat} {c : Char} {lines : Lines}
    (h : lines.OnLine bytes number (some c)) :
    (CharStream.next lines).source.OnLine bytes (if c = '\n' then number + 1 else number)
      (CharStream.next lines).char? := by
  obtain ⟨rest, input, taken, finished⟩ := lines
  obtain ⟨hfinished, hends⟩ := h.endsLine c rfl
  cases hfinished
  cases rest with
  | cons d rest =>
    obtain ⟨hc, hrest⟩ := hends.tail
    rw [if_neg hc]
    refine ⟨⟨h.pulled_eq, h.bytes_eq⟩, h.continues, fun e he => ⟨rfl, ?_⟩⟩
    cases he
    exact hrest
  | nil =>
    have hline : (Line.ofInput input).BeginsWith input.bytes :=
      Line.beginsWith_read input.buffer h.continues
    have hbytes : (Line.ofInput input).bytes = Line.leading 1 input.bytes :=
      Line.bytes_read input.buffer h.continues
    have hends' := endsLine_decode h.continues
    -- Where the line before has no line feed the input is empty, and so is the line taken.
    have hleading : Line.leading (if c = '\n' then number + 1 else number) bytes =
        Line.leading number bytes ++ (Line.ofInput input).bytes := by
      by_cases hc : c = '\n'
      · rw [if_pos hc, hbytes]
        exact Line.leading_succ h.bytes_eq
      · have hnone : input.bytes = [] := hends.eq_nil hc
        rw [if_neg hc, hbytes, hnone]
        exact (List.append_nil _).symm
    have htaken : taken + (Line.ofInput input).bytes.length =
        (Line.leading (if c = '\n' then number + 1 else number) bytes).length := by
      rw [hleading, List.length_append]
      exact congrArg (· + _) h.pulled_eq
    have hrest : Line.leading (if c = '\n' then number + 1 else number) bytes ++
        (Line.ofInput input).input.bytes = bytes := by
      rw [hleading, List.append_assoc, hline.bytes_eq]
      exact h.bytes_eq
    rw [next_of_beginsWith hline taken]
    cases hchars : Utf8.decode (Line.ofInput input).bytes with
    | nil => exact ⟨⟨htaken, hrest⟩, hline.continues, fun e he => nomatch he⟩
    | cons d rest =>
      rw [hchars] at hends'
      refine ⟨⟨htaken, hrest⟩, hline.continues, fun e he => ⟨rfl, ?_⟩⟩
      cases he
      exact hends'

end Lines

namespace Cursor

section Places

variable {σ : Type} [CharStream σ] {cursor : Cursor σ}

/-- Only behind a line feed the next line begins. -/
theorem line_advance (h : cursor.current? ≠ some '\n') :
    cursor.advance.place.line = cursor.place.line := by
  rw [advance]
  split
  · rfl
  · next c hcurrent =>
    have hc : c ≠ '\n' := by
      rintro rfl
      exact h hcurrent
    rw [moved, Position.after, if_neg hc]

/-- Taking characters other than line feeds does not lead to another line. -/
theorem line_takeWhile {isMember : Char → Bool} (h : isMember '\n' = false) (taken : List Char) :
    (cursor.takeWhile isMember taken).cursor.place.line = cursor.place.line := by
  fun_induction takeWhile isMember taken cursor with
  | case1 => rfl
  | case2 taken cursor c hcurrent hmember ih =>
    rw [ih]
    apply line_advance
    rw [hcurrent]
    intro hc
    cases hc
    rw [h] at hmember
    cases hmember
  | case3 => rfl

/-- Cutting a token does not lead to another line. -/
theorem line_cut (h : cursor.current? ≠ some '\n') :
    cursor.cut.cursor.place.line = cursor.place.line := by
  rw [cut]
  split
  · rfl
  · split
    · exact (line_takeWhile (by decide) _).trans (line_advance h)
    · split
      · exact (line_takeWhile (by decide) _).trans (line_advance h)
      · exact line_advance h

/-- The cursor behind a gap does not stand on a line feed. -/
theorem skipGap_ne_lineFeed (cursor : Cursor σ) : cursor.skipGap.current? ≠ some '\n' := by
  have hskip : ∀ cursor : Cursor σ,
      (cursor.skipWhile Unicode.isWhiteSpace).current? ≠ some '\n' := by
    intro cursor
    fun_induction skipWhile Unicode.isWhiteSpace cursor with
    | case1 cursor hcurrent =>
      rw [hcurrent]
      intro hc
      cases hc
    | case2 cursor c hcurrent hmember ih => exact ih
    | case3 cursor c hcurrent hmember =>
      rw [hcurrent]
      intro hc
      cases hc
      exact hmember (by decide)
  fun_induction skipGap cursor with
  | case1 cursor here hcomment ih => exact ih
  | case2 cursor here hcomment => exact hskip cursor

/-- The cursor behind a token stands on the line of the token. -/
theorem line_scan (cursor : Cursor σ) :
    cursor.scan.cursor.place.line = cursor.scan.lexeme.position.line :=
  line_cut (skipGap_ne_lineFeed cursor)

/-- The first token is behind the blank before the first column. -/
theorem scan_start (source : σ) : (start source).scan = (start source).advance.scan := by
  have hchars : (start source).chars = ' ' :: CharStream.chars source := rfl
  rw [scan, scan, skipGap_of_cons hchars (by decide)]

end Places

/-- Whether a cursor has taken the lines of some bytes up to the one that it stands on. -/
def OnLine (bytes : List UInt8) (cursor : Cursor Lines) : Prop :=
  cursor.source.OnLine bytes cursor.place.line cursor.current?

/-- A cursor that has taken the lines up to its own still has behind a step, and when it reports. -/
theorem kept_onLine (bytes : List UInt8) : Kept (OnLine bytes) := by
  refine ⟨fun {cursor} h => ?_, fun _ h => h⟩
  rw [advance]
  split
  · exact h
  · next c hcurrent =>
    rw [OnLine, hcurrent] at h
    have hnext := h.next
    rw [OnLine, moved, Position.after]
    by_cases hc : c = '\n'
    · rw [if_pos hc] at hnext ⊢
      exact hnext
    · rw [if_neg hc] at hnext ⊢
      exact hnext

/-- The blank before the first column leads to the first line. -/
theorem onLine_scan_start {events : List InputEvent} (h : ∀ event ∈ events, event.Continues) :
    OnLine (InputEvent.delivered events) (start (Lines.ofEvents events)).scan.cursor := by
  rw [scan_start]
  exact (kept_onLine _).scan (Lines.onLine_ofEvents h).next

/-- A cursor that has taken the lines up to its own has taken those up to the token behind which it
stands. -/
theorem OnLine.hasTaken {bytes : List UInt8} {cursor : Cursor Lines}
    (h : OnLine bytes cursor.scan.cursor) :
    cursor.scan.cursor.source.HasTaken bytes cursor.scan.lexeme.position.line := by
  rw [← line_scan]
  exact h.toHasTaken

end Cursor

namespace Feed

/-- Whether a feed has taken the lines of some bytes up to the one that its lookahead is on. -/
def OnLine (bytes : List UInt8) (feed : Feed Lines) : Prop :=
  feed.cursor.OnLine bytes ∧ feed.cursor.place.line = feed.lookahead.position.line

/-- A feed that has taken the lines up to its lookahead still has when a token is discarded, and
when it reports. -/
theorem kept_onLine (bytes : List UInt8) : Kept (OnLine bytes) :=
  ⟨fun h => ⟨(Cursor.kept_onLine bytes).scan h.1, Cursor.line_scan _⟩, fun _ h => h⟩

end Feed

namespace Lines

/-- From an input that comes in any portions and with any interruptions nothing is taken in the
beginning. When a token has been cut, what has been taken are the lines up to the one that the token
is on, and so it is with the lookahead of a session after any operations. -/
theorem pulled_eq_leading {events : List InputEvent} (h : ∀ event ∈ events, event.Continues) :
    CharStream.pulled (Cursor.start (ofEvents events)).source = 0 ∧
      (∀ count : Nat,
        let scan := ((Cursor.start (ofEvents events)).afterTokens count).scan
        scan.cursor.source.HasTaken (InputEvent.delivered events) scan.lexeme.position.line) ∧
      ∀ (config : Config) (operations : List Session.Operation),
        let session := (Session.start (ofEvents events) config).performAll operations
        session.pulled =
            (Line.leading session.lookahead.position.line (InputEvent.delivered events)).length ∧
          session.feed.cursor.source.HasTaken (InputEvent.delivered events)
            session.lookahead.position.line := by
  refine ⟨rfl, fun count => ?_, fun config operations => ?_⟩
  · apply Cursor.OnLine.hasTaken
    induction count with
    | zero => exact Cursor.onLine_scan_start h
    | succ count ih => exact (Cursor.kept_onLine _).scan ih
  · have hstart : (Feed.start (ofEvents events)).OnLine (InputEvent.delivered events) :=
      ⟨Cursor.onLine_scan_start h, Cursor.line_scan _⟩
    have hfeed : ((Session.start (ofEvents events) config).performAll operations).feed.OnLine
        (InputEvent.delivered events) :=
      Session.kept_performAll (Feed.kept_onLine _) hstart operations
    obtain ⟨hcursor, hline⟩ := hfeed
    have htaken := hcursor.toHasTaken
    rw [hline] at htaken
    exact ⟨htaken.pulled_eq, htaken⟩

/-- Two lines in pieces, with a comment in the first one. -/
def commented : List InputEvent :=
  [.bytes [0x78, 0x20], .interrupted, .bytes [0x23, 0x0A, 0x79], .interrupted]

/-- A session on the two lines has not taken the second one in the beginning. -/
theorem pulled_of_commented :
    (∀ event ∈ commented, event.Continues) ∧ (InputEvent.delivered commented).length = 5 ∧
      (Session.start (ofEvents commented) .standard).pulled = 4 := by
  have hcontinues : ∀ event ∈ commented, event.Continues := by decide
  refine ⟨hcontinues, by decide, ?_⟩
  obtain ⟨hpulled, _⟩ := (pulled_eq_leading hcontinues).2.2 .standard []
  let division : Division :=
    .next [] (.word 'x' []) (.next [' ', '#', '\n'] (.word 'y' []) (.ending []))
  have hgap : IsGap [' ', '#', '\n'] ['y'] :=
    .blank (by decide) (.comment (List.forall_mem_nil _) (stops_cons (by decide) _)
      (.blank (by decide) (.nil _)))
  have hvalid : division.Valid :=
    ⟨.nil _, ⟨by decide, List.forall_mem_nil _, stops_cons (by decide) _⟩, hgap,
      ⟨by decide, List.forall_mem_nil _, stops_nil _⟩, .nil _⟩
  have hchars : division.chars = CharStream.chars (ofEvents commented) := by
    rw [chars_eq (ofEvents commented) rfl hcontinues]
    decide
  have hlookahead : (Feed.start (ofEvents commented)).lookahead.position = ⟨1, 1⟩ := by
    rw [Feed.lookahead_of_tape (Feed.tape_start hvalid hchars)]
    rfl
  change _ = (Line.leading (Feed.start (ofEvents commented)).lookahead.position.line _).length
    at hpulled
  rw [hlookahead] at hpulled
  exact hpulled

end Lines

end Kaleidoscope
