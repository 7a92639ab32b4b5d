import Kaleidoscope.Stream.Lines
import Kaleidoscope.Proofs.Runs
import Kaleidoscope.Proofs.Utf8.Decoding

/-!
# Lines and the text that they make up

An input that neither ends for the moment nor fails is one sequence of bytes, whatever the portions
that it comes in and however often it is interrupted. The stream takes lines from it and decodes
each by itself. The main statements say that the lines make up these bytes, that the stream delivers
what all the bytes together stand for, and that everything that is read from it is what is read from
that text in memory.
-/

namespace Kaleidoscope

namespace InputEvent

/-- The bytes that an event delivers. -/
def portion : InputEvent → List UInt8
  | .bytes portion => portion
  | _ => []

/-- Whether an event delivers some bytes or is an interruption. -/
def Continues : InputEvent → Prop
  | .bytes portion => portion ≠ []
  | .interrupted => True
  | .failed _ => False

instance : DecidablePred Continues
  | .bytes portion => inferInstanceAs (Decidable (portion ≠ []))
  | .interrupted => .isTrue trivial
  | .failed _ => .isFalse id

/-- The bytes that some events deliver. -/
def delivered (events : List InputEvent) : List UInt8 := events.flatMap portion

end InputEvent

/-- The bytes that are still to be had, in order. -/
def ByteInput.bytes (input : ByteInput) : List UInt8 :=
  input.buffer ++ InputEvent.delivered input.events

namespace Line

/-- What a line leaves of some bytes: the input goes on with the others, and there are none unless
the line ends with a line feed. -/
structure BeginsWith (bytes : List UInt8) (line : Line) : Prop where
  /-- The input has not failed. -/
  fault_eq : line.fault? = none
  /-- No byte is lost. -/
  bytes_eq : line.bytes ++ line.input.bytes = bytes
  /-- The input still neither ends for the moment nor fails. -/
  continues : ∀ event ∈ line.input.events, event.Continues
  /-- A line that does not end with a line feed is the last one. -/
  complete : (∃ front, line.bytes = front ++ [lineFeed]) ∨ line.input.bytes = []

/-- A portion is split behind its first line feed. -/
theorem split_of_some {portion rest : List UInt8} (h : (split portion).2 = some rest) :
    ∃ front, lineFeed ∉ front ∧ portion = front ++ lineFeed :: rest ∧
      (split portion).1 = front ++ [lineFeed] := by
  induction portion with
  | nil => cases h
  | cons byte bytes ih =>
    simp only [split] at h ⊢
    by_cases hbyte : byte = lineFeed
    · rw [if_pos hbyte] at h ⊢
      cases h
      rw [hbyte]
      exact ⟨[], List.not_mem_nil, rfl, rfl⟩
    · rw [if_neg hbyte] at h ⊢
      obtain ⟨front, hnot, hportion, hfront⟩ := ih h
      refine ⟨byte :: front, List.not_mem_cons_of_ne_of_not_mem (Ne.symm hbyte) hnot, ?_, ?_⟩
      · rw [hportion, List.cons_append]
      · rw [hfront, List.cons_append]

/-- Only a portion without a line feed is not split. -/
theorem split_of_none {portion : List UInt8} (h : (split portion).2 = none) :
    lineFeed ∉ portion := by
  induction portion with
  | nil => exact List.not_mem_nil
  | cons byte bytes ih =>
    simp only [split] at h
    by_cases hbyte : byte = lineFeed
    · rw [if_pos hbyte] at h
      cases h
    · rw [if_neg hbyte] at h
      exact List.not_mem_cons_of_ne_of_not_mem (Ne.symm hbyte) (ih h)

/-- Bytes that have been taken before belong to the line. -/
theorem BeginsWith.precededBy {bytes : List UInt8} {line : Line} (h : line.BeginsWith bytes)
    (front : List UInt8) : (line.precededBy front).BeginsWith (front ++ bytes) := by
  refine ⟨h.fault_eq, ?_, h.continues, ?_⟩
  · simp only [Line.precededBy, List.append_assoc, h.bytes_eq]
  · rcases h.complete with ⟨middle, hmiddle⟩ | hnone
    · refine .inl ⟨front ++ middle, ?_⟩
      simp only [Line.precededBy, hmiddle, List.append_assoc]
    · exact .inr hnone

/-- A line is taken across portions and interruptions. -/
theorem beginsWith_read (buffer : List UInt8) {events : List InputEvent}
    (h : ∀ event ∈ events, event.Continues) :
    (read buffer events).BeginsWith (buffer ++ InputEvent.delivered events) := by
  fun_induction read buffer events with
  | case1 buffer rest events hsplit =>
    obtain ⟨front, _, hbuffer, hfront⟩ := split_of_some hsplit
    refine ⟨rfl, ?_, h, .inl ⟨front, hfront⟩⟩
    simp only [ByteInput.bytes]
    rw [hfront, hbuffer, List.append_assoc, List.append_assoc, List.singleton_append,
      List.cons_append]
  | case2 buffer hsplit => exact ⟨rfl, rfl, h, .inr rfl⟩
  | case3 buffer events hsplit ih =>
    exact (ih (List.forall_mem_cons.1 h).2).precededBy buffer
  | case4 buffer reason events hsplit => exact (List.forall_mem_cons.1 h).1.elim
  | case5 buffer events hsplit => exact absurd rfl (List.forall_mem_cons.1 h).1
  | case6 buffer byte portion events hsplit ih =>
    exact (ih (List.forall_mem_cons.1 h).2).precededBy buffer

/-- The line feed at the end of a line may be cut behind, so the line is decoded by itself. -/
theorem BeginsWith.decode_eq {bytes : List UInt8} {line : Line} (h : line.BeginsWith bytes) :
    Utf8.decode bytes = Utf8.decode line.bytes ++ Utf8.decode line.input.bytes := by
  rw [← h.bytes_eq]
  rcases h.complete with ⟨front, hfront⟩ | hnone
  · rw [hfront]
    exact Utf8.decode_append_of_lineFeed front line.input.bytes
  · rw [hnone, List.append_nil]
    exact (List.append_nil _).symm

/-- Only where no byte is left a line is empty. -/
theorem BeginsWith.eq_nil {bytes : List UInt8} {line : Line} (h : line.BeginsWith bytes)
    (hnil : line.bytes = []) : bytes = [] := by
  rw [← h.bytes_eq, hnil, List.nil_append]
  rcases h.complete with ⟨front, hfront⟩ | hnone
  · rw [hnil] at hfront
    exact absurd hfront.symm (List.append_ne_nil_of_right_ne_nil _ (List.cons_ne_nil _ _))
  · exact hnone

end Line

namespace Lines

/-- Between two lines the stream takes the next one, and delivers the first character of it or ends
where that has none. -/
theorem next_of_beginsWith {input : ByteInput} {bytes : List UInt8}
    (h : (Line.ofInput input).BeginsWith bytes) (taken : Nat) :
    CharStream.next (⟨[], input, taken, false⟩ : Lines) =
      match Utf8.decode (Line.ofInput input).bytes with
      | [] => ⟨none, none, ⟨[], (Line.ofInput input).input,
          taken + (Line.ofInput input).bytes.length, true⟩⟩
      | c :: rest => ⟨some c, none, ⟨rest, (Line.ofInput input).input,
          taken + (Line.ofInput input).bytes.length, false⟩⟩ := by
  change start ⟨[], input, taken, false⟩ (Line.ofInput input) = _
  rw [start, h.fault_eq]
  cases Utf8.decode (Line.ofInput input).bytes with
  | nil => rfl
  | cons c rest => rfl

/-- A stream that has not ended delivers the rest of its line and what all the bytes below stand
for. -/
theorem chars_eq (lines : Lines) (hfinished : lines.finished = false)
    (hcontinues : ∀ event ∈ lines.input.events, event.Continues) :
    CharStream.chars lines = lines.rest ++ Utf8.decode lines.input.bytes := by
  induction hremaining : CharStream.remaining lines using Nat.strong_induction_on
    generalizing lines with
  | _ remaining ih =>
    subst hremaining
    obtain ⟨rest, input, taken, finished⟩ := lines
    cases hfinished
    cases rest with
    | cons c rest =>
      have hnext : (CharStream.next (⟨c :: rest, input, taken, false⟩ : Lines)).char? = some c :=
        rfl
      have hlt := CharStream.remaining_next _ c hnext
      have hrest := ih _ hlt ⟨rest, input, taken, false⟩ rfl hcontinues rfl
      rw [CharStream.chars_of_some hnext]
      exact congrArg (c :: ·) hrest
    | nil =>
      have hline : (Line.ofInput input).BeginsWith input.bytes :=
        Line.beginsWith_read input.buffer hcontinues
      have hnext := next_of_beginsWith hline taken
      change CharStream.chars _ = Utf8.decode input.bytes
      cases hchars : Utf8.decode (Line.ofInput input).bytes with
      | nil =>
        have hbytes : (Line.ofInput input).bytes = [] := by
          by_contra hne
          exact Utf8.decode_ne_nil hne hchars
        rw [hchars] at hnext
        rw [hline.eq_nil hbytes]
        exact CharStream.chars_of_none (by rw [hnext])
      | cons c rest =>
        rw [hchars] at hnext
        have hchar : (CharStream.next (⟨[], input, taken, false⟩ : Lines)).char? = some c := by
          rw [hnext]
        have hlt := CharStream.remaining_next _ c hchar
        rw [hnext] at hlt
        have hrest := ih _ hlt _ rfl hline.continues rfl
        rw [CharStream.chars_of_some hchar, hnext, hline.decode_eq, hchars]
        exact congrArg (c :: ·) hrest

/-- Whatever the portions of an input are and however often it is interrupted, the stream delivers
the characters that all its bytes together stand for. Its tokens, their places, the outcomes of a
run and their numbers are those of any text in memory for which the bytes stand. -/
theorem reads_as_text {events : List InputEvent} (h : ∀ event ∈ events, event.Continues) :
    Utf8.Decodes (InputEvent.delivered events) (CharStream.chars (ofEvents events)) ∧
      ∀ text : String, Utf8.Decodes (InputEvent.delivered events) text.toList →
        CharStream.chars (ofEvents events) = text.toList ∧
        (Feed.start (ofEvents events)).tape = (Feed.start (Text.ofString text)).tape ∧
        ∀ config : Config,
          ((Feed.start (ofEvents events)).run config).outcomes =
            ((Feed.start (Text.ofString text)).run config).outcomes ∧
          ((Feed.start (ofEvents events)).run config).parsed =
            ((Feed.start (Text.ofString text)).run config).parsed ∧
          ((Feed.start (ofEvents events)).run config).failed =
            ((Feed.start (Text.ofString text)).run config).failed := by
  have hdecodes : Utf8.Decodes (InputEvent.delivered events)
      (CharStream.chars (ofEvents events)) :=
    Utf8.decodes_iff.2 (chars_eq (ofEvents events) rfl h)
  refine ⟨hdecodes, fun text htext => ?_⟩
  have hchars : CharStream.chars (ofEvents events) = text.toList := hdecodes.unique htext
  have htape : (Feed.start (ofEvents events)).tape = (Feed.start (Text.ofString text)).tape :=
    (Feed.alike_start (hchars.trans (CharStream.chars_text (Text.ofString text)).symm)).tape_eq
  refine ⟨hchars, htape, fun config => ?_⟩
  have houtcomes : ((Feed.start (ofEvents events)).run config).outcomes =
      ((Feed.start (Text.ofString text)).run config).outcomes :=
    Feed.outcomes_run_congr htape (Feed.settled_start _)
  refine ⟨houtcomes, ?_, ?_⟩
  · rw [Feed.parsed_run, Feed.parsed_run, houtcomes]
  · rw [Feed.failed_run, Feed.failed_run, houtcomes]

/-- A prototype and a number in pieces: one of them ends inside a character, the first line is in
four of them, and the second line ends with the beginning of a character. -/
def pieces : List InputEvent :=
  [.interrupted, .bytes [0x64, 0x65], .bytes [0x66, 0x20, 0xC3], .interrupted, .interrupted,
    .bytes [0xA9], .bytes [0x28, 0x0A, 0x78, 0x29, 0xE2], .bytes [0x82, 0x0A, 0x31], .interrupted]

/-- The pieces make up a text, and a run over them comes to what one over the text does. -/
theorem reads_as_text_of_pieces :
    (∀ event ∈ pieces, event.Continues) ∧
      Utf8.Decodes (InputEvent.delivered pieces) "def é(\nx)\uFFFD\n1".toList ∧
      CharStream.chars (ofEvents pieces) = "def é(\nx)\uFFFD\n1".toList ∧
      ((Feed.start (ofEvents pieces)).run .standard).outcomes =
        ((Feed.start (Text.ofString "def é(\nx)\uFFFD\n1")).run .standard).outcomes := by
  have hcontinues : ∀ event ∈ pieces, event.Continues := by decide
  have hdecodes : Utf8.Decodes (InputEvent.delivered pieces) "def é(\nx)\uFFFD\n1".toList :=
    Utf8.decodes_iff.2 (by decide)
  obtain ⟨hchars, _, hruns⟩ := (reads_as_text hcontinues).2 _ hdecodes
  exact ⟨hcontinues, hdecodes, hchars, (hruns .standard).1⟩

end Lines

end Kaleidoscope
