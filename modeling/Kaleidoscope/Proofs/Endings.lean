import Kaleidoscope.Proofs.Lines
import Kaleidoscope.Proofs.Operations

/-!
# How an input ends

An input may have no byte to deliver for the moment, and may fail, at any time. It is read in lines,
each of which goes on to a line feed, an end or a failure, and the first one that is empty or fails
is the last. The main statement says, for every input, what the stream delivers before it ends, that
an error is reported there and once if the last line has failed, and that nothing is taken,
delivered or reported from then on.
-/

namespace Kaleidoscope

/-- How a line is taken from an input, byte by byte. -/
inductive ByteInput.Takes : ByteInput → Line → Prop where
  /-- A line feed is the last byte of a line. -/
  | lineFeed (rest : List UInt8) (events : List InputEvent) :
    Takes ⟨Line.lineFeed :: rest, events⟩ ⟨[Line.lineFeed], none, ⟨rest, events⟩⟩
  /-- Any other byte has the rest of the line behind it. -/
  | byte {byte : UInt8} {rest : List UInt8} {events : List InputEvent} {line : Line}
    (hbyte : byte ≠ Line.lineFeed) (h : Takes ⟨rest, events⟩ line) :
    Takes ⟨byte :: rest, events⟩ (line.precededBy [byte])
  /-- Where a portion is used up the line goes on in the next one. -/
  | portion {portion : List UInt8} {events : List InputEvent} {line : Line}
    (hportion : portion ≠ []) (h : Takes ⟨portion, events⟩ line) :
    Takes ⟨[], .bytes portion :: events⟩ line
  /-- Behind an interruption the line goes on. -/
  | interrupted {events : List InputEvent} {line : Line} (h : Takes ⟨[], events⟩ line) :
    Takes ⟨[], .interrupted :: events⟩ line
  /-- An end for the moment ends the line. -/
  | pause (events : List InputEvent) : Takes ⟨[], .bytes [] :: events⟩ ⟨[], none, ⟨[], events⟩⟩
  /-- The end of the input ends the line. -/
  | ending : Takes ⟨[], []⟩ ⟨[], none, ⟨[], []⟩⟩
  /-- A failure ends the line. -/
  | failed (reason : String) (events : List InputEvent) :
    Takes ⟨[], .failed reason :: events⟩ ⟨[], some reason, ⟨[], events⟩⟩

namespace Line

/-- Whether a line is the last one: it has failed or is empty. -/
def IsLast (line : Line) : Prop := line.fault? ≠ none ∨ line.bytes = []

end Line

/-- What an input yields: the characters of its lines, each decoded by itself, up to the last one,
which yields nothing. -/
inductive ByteInput.Yields : ByteInput → List Char → Line → Prop where
  /-- The last line. -/
  | last {input : ByteInput} {line : Line} (htakes : input.Takes line) (hlast : line.IsLast) :
    Yields input [] line
  /-- A line in front of others. -/
  | line {input : ByteInput} {line last : Line} {chars behind : List Char}
    (htakes : input.Takes line) (hlast : ¬ line.IsLast) (hchars : Utf8.Decodes line.bytes chars)
    (h : line.input.Yields behind last) : Yields input (chars ++ behind) last

namespace Line

/-- Bytes in front of a line that are in front of others. -/
theorem precededBy_precededBy (line : Line) (front back : List UInt8) :
    (line.precededBy back).precededBy front = line.precededBy (front ++ back) := by
  rw [precededBy, precededBy, precededBy, List.append_assoc]

/-- Bytes without a line feed are in front of the rest of a line. -/
theorem takes_append {front buffer : List UInt8} {events : List InputEvent} {line : Line}
    (h : lineFeed ∉ front) (htakes : ByteInput.Takes ⟨buffer, events⟩ line) :
    ByteInput.Takes ⟨front ++ buffer, events⟩ (line.precededBy front) := by
  induction front with
  | nil => exact htakes
  | cons byte front ih =>
    rw [List.mem_cons, not_or] at h
    obtain ⟨hbyte, hfront⟩ := h
    have hline := ByteInput.Takes.byte (Ne.symm hbyte) (ih hfront)
    rw [precededBy_precededBy, List.singleton_append] at hline
    exact hline

/-- A portion without a line feed is in front of what is taken behind it. -/
theorem takes_of_split_none {portion : List UInt8} (h : (split portion).2 = none)
    {events : List InputEvent} {line : Line} (htakes : ByteInput.Takes ⟨[], events⟩ line) :
    ByteInput.Takes ⟨portion, events⟩ (line.precededBy portion) := by
  have hline := takes_append (split_of_none h) htakes
  rw [List.append_nil] at hline
  exact hline

/-- A line is taken byte by byte, whatever the portions are. -/
theorem takes_read (buffer : List UInt8) (events : List InputEvent) :
    ByteInput.Takes ⟨buffer, events⟩ (read buffer events) := by
  have hends : ∀ {buffer : List UInt8} {events : List InputEvent} {fault? : Option String}
      {input : ByteInput}, (split buffer).2 = none →
      ByteInput.Takes ⟨[], events⟩ ⟨[], fault?, input⟩ →
        ByteInput.Takes ⟨buffer, events⟩ ⟨buffer, fault?, input⟩ := by
    intro buffer events fault? input hsplit htakes
    have hline := takes_of_split_none hsplit htakes
    rw [precededBy, List.append_nil] at hline
    exact hline
  fun_induction read buffer events with
  | case1 buffer rest events hsplit =>
    obtain ⟨front, hnot, rfl, hfront⟩ := split_of_some hsplit
    rw [hfront]
    exact takes_append hnot (.lineFeed rest events)
  | case2 buffer hsplit => exact hends hsplit .ending
  | case3 buffer events hsplit ih => exact takes_of_split_none hsplit (.interrupted ih)
  | case4 buffer reason events hsplit => exact hends hsplit (.failed reason events)
  | case5 buffer events hsplit => exact hends hsplit (.pause events)
  | case6 buffer byte portion events hsplit ih =>
    exact takes_of_split_none hsplit (.portion (List.cons_ne_nil _ _) ih)

end Line

namespace ByteInput

variable {input : ByteInput}

/-- An input has no more than one line that is taken from it first. -/
theorem Takes.unique {line other : Line} (h : input.Takes line) (h' : input.Takes other) :
    line = other := by
  induction h generalizing other with
  | lineFeed rest events =>
    cases h' with
    | lineFeed => rfl
    | byte hbyte => exact absurd rfl hbyte
  | byte hbyte _ ih =>
    cases h' with
    | lineFeed => exact absurd rfl hbyte
    | byte _ h' => rw [ih h']
  | portion hportion _ ih =>
    cases h' with
    | portion _ h' => exact ih h'
    | pause => exact absurd rfl hportion
  | interrupted _ ih =>
    cases h' with
    | interrupted h' => exact ih h'
  | pause events =>
    cases h' with
    | portion hportion => exact absurd rfl hportion
    | pause => rfl
  | ending =>
    cases h' with
    | ending => rfl
  | failed reason events =>
    cases h' with
    | failed => rfl

/-- What is taken is the line that the stream reads. -/
theorem takes_iff {line : Line} : input.Takes line ↔ line = Line.ofInput input := by
  have htakes : input.Takes (Line.ofInput input) := Line.takes_read input.buffer input.events
  refine ⟨fun h => h.unique htakes, ?_⟩
  rintro rfl
  exact htakes

/-- An input yields one sequence of characters, and has one last line. -/
theorem Yields.unique {chars chars' : List Char} {last last' : Line} (h : input.Yields chars last)
    (h' : input.Yields chars' last') : chars = chars' ∧ last = last' := by
  induction h generalizing chars' with
  | last htakes hlast =>
    cases h' with
    | last htakes' => exact ⟨rfl, htakes.unique htakes'⟩
    | line htakes' hlast' =>
      rw [htakes.unique htakes'] at hlast
      exact absurd hlast hlast'
  | line htakes hlast hchars _ ih =>
    cases h' with
    | last htakes' hlast' =>
      rw [htakes'.unique htakes] at hlast'
      exact absurd hlast' hlast
    | line htakes' hlast' hchars' h' =>
      obtain rfl := htakes.unique htakes'
      obtain ⟨rfl, rfl⟩ := ih h'
      exact ⟨by rw [hchars.unique hchars'], rfl⟩

/-- The line with which an input stops is the last one. -/
theorem Yields.isLast {chars : List Char} {last : Line} (h : input.Yields chars last) :
    last.IsLast := by
  induction h with
  | last _ hlast => exact hlast
  | line _ _ _ _ ih => exact ih

/-- Every input comes to a last line: each of the others takes a byte. -/
theorem exists_yields (input : ByteInput) : ∃ chars last, input.Yields chars last := by
  induction hsize : input.size using Nat.strong_induction_on generalizing input with
  | _ size ih =>
    subst hsize
    have htakes := takes_iff.2 (Eq.refl (Line.ofInput input))
    by_cases hlast : (Line.ofInput input).IsLast
    · exact ⟨[], _, .last htakes hlast⟩
    · rw [Line.IsLast, not_or] at hlast
      have hbytes := List.length_pos_iff.2 hlast.2
      have htotal := Line.size_ofInput input
      obtain ⟨chars, last, h⟩ := ih _ (by omega) (Line.ofInput input).input rfl
      refine ⟨_, last, .line htakes ?_ (Utf8.decodes_decode _) h⟩
      rw [Line.IsLast, not_or]
      exact hlast

end ByteInput

/-- A stream after some requests. -/
def CharStream.after {σ : Type} [CharStream σ] (source : σ) : Nat → σ
  | 0 => source
  | count + 1 => (next (after source count)).source

namespace Lines

variable {lines : Lines} {last : Line} {chars : List Char}

/-- Whether a stream has not ended, and what it delivers before it does. -/
structure Holds (lines : Lines) (chars : List Char) (last : Line) : Prop where
  /-- It has not ended. -/
  finished_eq : lines.finished = false
  /-- The rest of its line is in front of what its input yields. -/
  exists_yields : ∃ behind, chars = lines.rest ++ behind ∧ lines.input.Yields behind last

/-- Whether a stream has ended behind its last line. -/
structure HasEnded (lines : Lines) (last : Line) : Prop where
  /-- It has ended. -/
  finished_eq : lines.finished = true
  /-- No character is left. -/
  rest_eq : lines.rest = []
  /-- Nothing has been taken behind the last line. -/
  input_eq : lines.input = last.input

/-- A line that has some characters and has not failed is begun. -/
theorem start_of_decode {line : Line} {c : Char} {rest : List Char} (hfault : line.fault? = none)
    (hdecode : Utf8.decode line.bytes = c :: rest) (lines : Lines) :
    lines.start line =
      ⟨some c, none, ⟨rest, line.input, lines.taken + line.bytes.length, false⟩⟩ := by
  rw [start, hfault, hdecode]

/-- The last line ends the stream. -/
theorem start_of_isLast {line : Line} (h : line.IsLast) (lines : Lines) :
    lines.start line =
      ⟨none, line.fault?, ⟨[], line.input, lines.taken + line.bytes.length, true⟩⟩ := by
  obtain ⟨bytes, fault?, input⟩ := line
  cases fault? with
  | some reason => rfl
  | none =>
    obtain rfl : bytes = [] := h.resolve_left (fun hne => hne rfl)
    rfl

/-- A stream that has not ended takes a line where it has no character. -/
theorem next_of_nil (hrest : lines.rest = []) (hfinished : lines.finished = false) :
    CharStream.next lines = lines.start (Line.ofInput lines.input) := by
  obtain ⟨rest, input, taken, finished⟩ := lines
  cases hrest
  cases hfinished
  rfl

/-- In the beginning a stream holds what its input yields. -/
theorem holds_ofEvents {events : List InputEvent} (h : ByteInput.Yields ⟨[], events⟩ chars last) :
    (ofEvents events).Holds chars last := ⟨rfl, chars, rfl, h⟩

/-- The first character is delivered, and the stream holds the others. -/
theorem Holds.next_cons {c : Char} (h : lines.Holds (c :: chars) last) :
    (CharStream.next lines).char? = some c ∧ (CharStream.next lines).fault? = none ∧
      (CharStream.next lines).source.Holds chars last := by
  obtain ⟨hfinished, behind, hchars, hyields⟩ := h
  cases hrest : lines.rest with
  | cons d rest =>
    have hnext : CharStream.next lines = ⟨some d, none, { lines with rest }⟩ := by
      change lines.next = _
      rw [next, hrest]
    rw [hrest, List.cons_append, List.cons.injEq] at hchars
    rw [hnext, hchars.1]
    exact ⟨rfl, rfl, hfinished, behind, hchars.2, hyields⟩
  | nil =>
    rw [hrest, List.nil_append] at hchars
    rw [next_of_nil hrest hfinished]
    subst hchars
    generalize hall : c :: chars = all at hyields
    cases hyields with
    | last => cases hall
    | @line _ line _ front behind htakes hlast hdecodes hbehind =>
      obtain rfl := ByteInput.takes_iff.1 htakes
      rw [Line.IsLast, not_or, not_not] at hlast
      -- A line with some bytes has a first character, so it is the one that is delivered.
      cases hdecode : Utf8.decode (Line.ofInput lines.input).bytes with
      | nil => exact absurd hdecode (Utf8.decode_ne_nil hlast.2)
      | cons d rest =>
        rw [start_of_decode hlast.1 hdecode]
        rw [Utf8.decodes_iff.1 hdecodes, hdecode, List.cons_append, List.cons.injEq] at hall
        rw [hall.1]
        exact ⟨rfl, rfl, rfl, behind, hall.2, hbehind⟩

/-- Where a stream of lines holds no character the last line is taken, and the stream ends as that
one does. -/
theorem Holds.next_nil (h : lines.Holds [] last) :
    (CharStream.next lines).char? = none ∧ (CharStream.next lines).fault? = last.fault? ∧
      (CharStream.next lines).source.HasEnded last := by
  obtain ⟨hfinished, behind, hchars, hyields⟩ := h
  obtain ⟨hrest, rfl⟩ := List.append_eq_nil_iff.1 hchars.symm
  rw [next_of_nil hrest hfinished]
  generalize hall : ([] : List Char) = all at hyields
  cases hyields with
  | last htakes hlast =>
    obtain rfl := ByteInput.takes_iff.1 htakes
    rw [start_of_isLast hlast]
    exact ⟨rfl, rfl, rfl, rfl, rfl⟩
  | line htakes hlast hdecodes =>
    obtain ⟨rfl, _⟩ := List.append_eq_nil_iff.1 hall.symm
    rw [Line.IsLast, not_or] at hlast
    exact absurd (Utf8.decodes_iff.1 hdecodes).symm (Utf8.decode_ne_nil hlast.2)

/-- A stream that has ended stays as it is. -/
theorem HasEnded.next_eq (h : lines.HasEnded last) :
    CharStream.next lines = ⟨none, none, lines⟩ := by
  change lines.next = _
  rw [next, h.rest_eq]
  exact if_pos h.finished_eq

/-- What a stream holds is what it delivers. -/
theorem Holds.chars_eq (h : lines.Holds chars last) : CharStream.chars lines = chars := by
  induction chars generalizing lines with
  | nil => exact CharStream.chars_of_none h.next_nil.1
  | cons c chars ih =>
    obtain ⟨hchar, _, hbehind⟩ := h.next_cons
    rw [CharStream.chars_of_some hchar, ih hbehind]

/-- After as many requests as there are characters, the stream holds no more of them, and before
that each request has delivered one. -/
theorem Holds.after (h : lines.Holds chars last) (count : Nat) (hcount : count ≤ chars.length) :
    (CharStream.after lines count).Holds (chars.drop count) last := by
  induction count with
  | zero => exact h
  | succ count ih =>
    have hbefore := ih (Nat.le_of_succ_le hcount)
    rw [List.drop_eq_getElem_cons hcount] at hbefore
    exact hbefore.next_cons.2.2

/-- A stream has ended when more requests have been made than it holds characters, and stays so. -/
theorem Holds.hasEnded_after (h : lines.Holds chars last) {count : Nat}
    (hcount : chars.length < count) : (CharStream.after lines count).HasEnded last := by
  induction count, hcount using Nat.le_induction with
  | base =>
    have hbefore := h.after chars.length (Nat.le_refl _)
    rw [List.drop_length] at hbefore
    exact hbefore.next_nil.2.2
  | succ count _ ih =>
    rw [CharStream.after, ih.next_eq]
    exact ih

end Lines

/-- Whether an event says that something could not be done. -/
def Event.isError (event : Event) : Bool := event.level = .error

namespace Cursor

/-- The errors that a cursor has reported. -/
def errors {σ : Type} (cursor : Cursor σ) : List Event := cursor.log.toList.filter Event.isError

/-- A report that is no error does not add to the errors of a cursor. -/
theorem errors_report {σ : Type} {event : Event} (h : event.level ≠ .error) (cursor : Cursor σ) :
    (cursor.report event).errors = cursor.errors := by
  rw [errors, report, Array.toList_push, List.filter_append, List.filter_singleton,
    Event.isError, decide_eq_false h]
  exact List.append_nil _

/-- A request adds the failure that it is answered with to the errors, if there is one. -/
theorem errors_moved {σ : Type} (cursor : Cursor σ) (place : Position) (reading : Reading σ) :
    (cursor.moved place reading).errors =
      cursor.errors ++ reading.fault?.toList.map Event.inputFailed := by
  obtain ⟨char?, fault?, source⟩ := reading
  cases fault? with
  | none => exact (List.append_nil _).symm
  | some reason =>
    rw [errors, moved, Array.toList_push, List.filter_append]
    rfl

/-- Whether a cursor has reported no error in front of the end of its stream, and behind the end
the failure of the last line and no other. -/
inductive Heeds (last : Line) (cursor : Cursor Lines) : Prop where
  /-- It is in front of the end. -/
  | before {chars : List Char} (hcurrent : cursor.current? ≠ none)
    (hholds : cursor.source.Holds chars last) (herrors : cursor.errors = [])
  /-- It is behind the end. -/
  | behind (hcurrent : cursor.current? = none) (hended : cursor.source.HasEnded last)
    (herrors : cursor.errors = last.fault?.toList.map Event.inputFailed)

/-- A step leads along the characters that the stream holds, and at the end nowhere. -/
theorem Heeds.advance {last : Line} {cursor : Cursor Lines} (h : cursor.Heeds last) :
    cursor.advance.Heeds last := by
  cases h with
  | @before chars hcurrent hholds herrors =>
    obtain ⟨c, hc⟩ := Option.ne_none_iff_exists'.1 hcurrent
    have hadvance : cursor.advance =
        cursor.moved (cursor.place.after c) (CharStream.next cursor.source) := by
      rw [Cursor.advance, hc]
    have hmoved := errors_moved cursor (cursor.place.after c) (CharStream.next cursor.source)
    rw [herrors, List.nil_append] at hmoved
    rw [hadvance]
    cases chars with
    | cons d chars =>
      obtain ⟨hchar, hfault, hbehind⟩ := hholds.next_cons
      refine .before ?_ hbehind ?_
      · rw [moved, hchar]
        exact Option.some_ne_none d
      · rw [hmoved, hfault]
        rfl
    | nil =>
      obtain ⟨hchar, hfault, hended⟩ := hholds.next_nil
      refine .behind hchar hended ?_
      rw [hmoved, hfault]
  | behind hcurrent hended herrors =>
    rw [Cursor.advance, hcurrent]
    exact .behind hcurrent hended herrors

/-- Steps, and reports of less than an error, keep what a cursor says of the end of its stream. -/
theorem kept_heeds (last : Line) : Kept (Heeds last) := by
  refine ⟨Heeds.advance, fun {cursor event} hlevel h => ?_⟩
  have herrors := errors_report hlevel cursor
  cases h with
  | before hcurrent hholds hnone => exact .before hcurrent hholds (herrors.trans hnone)
  | behind hcurrent hended hone => exact .behind hcurrent hended (herrors.trans hone)

end Cursor

namespace Feed

/-- Whether a feed has come to the end of its stream if its lookahead is the end of input. -/
def EndsWithStream {σ : Type} (feed : Feed σ) : Prop :=
  feed.lookahead.token = .endOfInput → feed.cursor.current? = none

/-- The end of input is cut at the end of the stream only. -/
theorem endsWithStream_ofScan {σ : Type} [CharStream σ] (cursor : Cursor σ) :
    (ofScan cursor.scan).EndsWithStream := fun h =>
  Cursor.current?_of_nil (Cursor.stands_of_scan_end h).chars_eq

/-- Discarding a token, and reports of less than an error, keep what a feed says of the end of its
stream. -/
theorem kept_heeds (last : Line) : Kept fun feed => feed.cursor.Heeds last ∧ feed.EndsWithStream :=
  ⟨fun h => ⟨(Cursor.kept_heeds last).scan h.1, endsWithStream_ofScan _⟩,
    fun hlevel h => ⟨(Cursor.kept_heeds last).report hlevel h.1, h.2⟩⟩

end Feed

namespace Lines

/-- Whatever an input does: There is one last line, which is empty or has failed. The stream
delivers what the lines before it stand for, a character for each request. The next request takes
the last line, and is answered by the end and the reason of the failure, if it has failed. Any other
request changes nothing. A session on the stream, after any operations, has reported no error as
long as its cursor is in front of that end, and behind it the failure of the last line and no other
error; what comes behind the last line it has not taken. -/
theorem ends_once (events : List InputEvent) :
    ∃ last : Line,
      (∀ chars other, ByteInput.Yields ⟨[], events⟩ chars other ↔
        chars = CharStream.chars (ofEvents events) ∧ other = last) ∧
      last.IsLast ∧
      (∀ count : Nat,
        let reading := CharStream.next (CharStream.after (ofEvents events) count)
        reading.char? = (CharStream.chars (ofEvents events))[count]? ∧
        (count < (CharStream.chars (ofEvents events)).length → reading.fault? = none) ∧
        (count = (CharStream.chars (ofEvents events)).length →
          reading.fault? = last.fault? ∧ reading.source.input = last.input) ∧
        ((CharStream.chars (ofEvents events)).length < count →
          reading = ⟨none, none, CharStream.after (ofEvents events) count⟩)) ∧
      ∀ (config : Config) (operations : List Session.Operation),
        let session := (Session.start (ofEvents events) config).performAll operations
        let cursor := session.feed.cursor
        (session.lookahead.token = .endOfInput → cursor.current? = none) ∧
        (cursor.current? ≠ none → session.log.toList.filter Event.isError = []) ∧
        (cursor.current? = none →
          session.log.toList.filter Event.isError = last.fault?.toList.map Event.inputFailed ∧
          cursor.source.input = last.input) := by
  obtain ⟨chars, last, hyields⟩ := ByteInput.exists_yields ⟨[], events⟩
  have hholds : (ofEvents events).Holds chars last := holds_ofEvents hyields
  rw [hholds.chars_eq]
  refine ⟨last, fun other otherLast => ⟨fun h => h.unique hyields, ?_⟩, ?_, fun count => ?_,
    fun config operations => ?_⟩
  · rintro ⟨rfl, rfl⟩
    exact hyields
  · exact hyields.isLast
  · intro reading
    rcases Nat.lt_trichotomy count chars.length with hlt | rfl | hgt
    · have hafter := hholds.after count hlt.le
      rw [List.drop_eq_getElem_cons hlt] at hafter
      obtain ⟨hchar, hfault, _⟩ := hafter.next_cons
      refine ⟨?_, fun _ => hfault, fun heq => absurd heq hlt.ne, fun hgt => absurd hgt hlt.asymm⟩
      rw [List.getElem?_eq_getElem hlt]
      exact hchar
    · have hafter := hholds.after chars.length (Nat.le_refl _)
      rw [List.drop_length] at hafter
      obtain ⟨hchar, hfault, hended⟩ := hafter.next_nil
      refine ⟨?_, fun hlt => absurd hlt (Nat.lt_irrefl _), fun _ => ⟨hfault, hended.input_eq⟩,
        fun hgt => absurd hgt (Nat.lt_irrefl _)⟩
      rw [List.getElem?_eq_none (Nat.le_refl _)]
      exact hchar
    · have hreading : reading = ⟨none, none, CharStream.after (ofEvents events) count⟩ :=
        (hholds.hasEnded_after hgt).next_eq
      refine ⟨?_, fun hlt => absurd hlt hgt.asymm, fun heq => absurd heq hgt.ne',
        fun _ => hreading⟩
      rw [hreading, List.getElem?_eq_none hgt.le]
  · intro session cursor
    have hstart : (Feed.start (ofEvents events)).cursor.Heeds last :=
      (Cursor.kept_heeds last).scan (.before (Option.some_ne_none ' ') hholds rfl)
    obtain ⟨hheeds, hends⟩ : cursor.Heeds last ∧ session.feed.EndsWithStream :=
      Session.kept_performAll (Feed.kept_heeds last) ⟨hstart, Feed.endsWithStream_ofScan _⟩
        operations
    refine ⟨hends, fun hcurrent => ?_, fun hcurrent => ?_⟩
    · cases hheeds with
      | before _ _ herrors => exact herrors
      | behind hnone => exact absurd hnone hcurrent
    · cases hheeds with
      | before hsome => exact absurd hcurrent hsome
      | behind _ hended herrors => exact ⟨herrors, hended.input_eq⟩

end Lines

end Kaleidoscope
