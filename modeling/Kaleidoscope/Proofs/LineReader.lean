import Kaleidoscope.Proofs.Endings

/-!
# Places in lines

The characters of an input, taken from lines by their places: the current line is kept as it is, and
what has been delivered of it is known by the place of the next character. Where that place is
behind the end of the line, lines are taken until one has a character there or the input has ended.
The main statements are that the place is inside the line whenever a character is taken from it,
whatever the input does, and that the answers are those of the stream of lines.
-/

namespace Kaleidoscope

/-- A line with a place, and the input below it. -/
structure LineReader where
  /-- The characters of the line. -/
  line : Array Char
  /-- The place of the next character. -/
  cursor : Nat
  /-- Whether an empty or failed line has been taken. -/
  finished : Bool
  /-- The input below the line. -/
  input : ByteInput

namespace LineReader

/-- The reader of an input of which nothing has been taken. -/
def ofEvents (events : List InputEvent) : LineReader := ⟨#[], 0, false, ⟨[], events⟩⟩

/-- Takes another line, and says why if that fails. A line that is empty or fails ends the reader
and leaves the line as it was. -/
def refill (reader : LineReader) : Option String × LineReader :=
  let line := Line.ofInput reader.input
  match line.fault?, line.bytes with
  | none, byte :: rest =>
    (none, ⟨(Utf8.decode (byte :: rest)).toArray, 0, reader.finished, line.input⟩)
  | fault?, _ => (fault?, { reader with finished := true, input := line.input })

/-- Whether another line is needed. -/
def NeedsLine (reader : LineReader) : Prop :=
  reader.finished = false ∧ reader.line.size ≤ reader.cursor

instance (reader : LineReader) : Decidable reader.NeedsLine :=
  inferInstanceAs (Decidable (_ ∧ _))

/-- A bound on the lines that may be needed. -/
def bound (reader : LineReader) : Nat := if reader.finished then 0 else reader.input.size + 1

/-- Another line lowers the bound. -/
theorem bound_refill_lt {reader : LineReader} (h : reader.NeedsLine) :
    reader.refill.2.bound < reader.bound := by
  have hsize := Line.size_ofInput reader.input
  have hbound : reader.bound = reader.input.size + 1 := by
    rw [bound, h.1, if_neg Bool.false_ne_true]
  rw [hbound, refill]
  split
  · next byte rest _ hbytes =>
    rw [hbytes, List.length_cons] at hsize
    rw [bound, h.1, if_neg Bool.false_ne_true]
    dsimp only
    omega
  · exact Nat.zero_lt_succ _

/-- Takes lines as long as another one is needed. What is said last is why that one has failed. -/
def fill (fault? : Option String) (reader : LineReader) : Option String × LineReader :=
  if _h : reader.NeedsLine then fill reader.refill.1 reader.refill.2 else (fault?, reader)
termination_by reader.bound
decreasing_by exact bound_refill_lt _h

/-- The reader behind all lines that are needed. -/
def filled (reader : LineReader) : LineReader := (reader.fill none).2

/-- Asks for the next character, which is taken from the line by its place. There is no answer where
the place is outside of the line. -/
def next? (reader : LineReader) : Option (Reading LineReader) :=
  if reader.filled.finished then some ⟨none, (reader.fill none).1, reader.filled⟩
  else
    (reader.filled.line[reader.filled.cursor]?).map fun c =>
      ⟨some c, (reader.fill none).1, { reader.filled with cursor := reader.filled.cursor + 1 }⟩

/-- The reader behind some requests, if all of them are answered. -/
def after? (reader : LineReader) : Nat → Option LineReader
  | 0 => some reader
  | count + 1 => (reader.after? count).bind fun later => later.next?.map Reading.source

/-- Whether a reader and a stream of lines have the same in front of them. -/
structure Follows (reader : LineReader) (lines : Lines) : Prop where
  /-- What the reader has not delivered of its line is the rest of the line of the stream. -/
  rest_eq : reader.line.toList.drop reader.cursor = lines.rest
  /-- The inputs are the same. -/
  input_eq : reader.input = lines.input
  /-- Both have ended, or neither has. -/
  finished_eq : reader.finished = lines.finished
  /-- Nothing is left of the last line. -/
  size_le : reader.finished = true → reader.line.size ≤ reader.cursor

/-- When no other line is needed any more, the reader has ended or the place is inside the line. -/
theorem cursor_filled_lt {reader : LineReader} (h : reader.filled.finished = false) :
    reader.filled.cursor < reader.filled.line.size := by
  unfold filled at *
  generalize (none : Option String) = fault? at *
  fun_induction fill fault? reader with
  | case1 fault? reader _ ih => exact ih h
  | case2 fault? reader hnot => exact Nat.not_le.1 fun hle => hnot ⟨h, hle⟩

section Step

variable {reader : LineReader} {lines : Lines}

/-- Without the need for another line none is taken. -/
theorem fill_of_not (h : ¬reader.NeedsLine) (fault? : Option String) :
    reader.fill fault? = (fault?, reader) := by
  rw [fill, dif_neg h]

/-- Where another line is needed, the last line ends the reader, and any other line has a character
at the place where it begins. -/
theorem fill_of_needsLine (h : reader.NeedsLine) (fault? : Option String) :
    let line := Line.ofInput reader.input
    (line.IsLast ∧
      reader.fill fault? = (line.fault?, { reader with finished := true, input := line.input })) ∨
      ∃ c rest, line.fault? = none ∧ Utf8.decode line.bytes = c :: rest ∧
        reader.fill fault? = (none, ⟨(c :: rest).toArray, 0, false, line.input⟩) := by
  intro line
  rw [fill, dif_pos h]
  by_cases hlast : line.IsLast
  · have hrefill : reader.refill =
        (line.fault?, { reader with finished := true, input := line.input }) := by
      rw [refill]
      split
      · next hfault hbytes =>
        exact absurd hlast (not_or.2 ⟨not_not.2 hfault, hbytes ▸ List.cons_ne_nil _ _⟩)
      · rfl
    rw [hrefill]
    exact .inl ⟨hlast, fill_of_not (fun hneeds => Bool.noConfusion hneeds.1) _⟩
  · obtain ⟨hfault, hbytes⟩ := not_or.1 hlast
    have hfault := not_not.1 hfault
    obtain ⟨byte, bytes, hbytes⟩ := List.exists_cons_of_ne_nil hbytes
    obtain ⟨c, rest, hdecode⟩ :=
      List.exists_cons_of_ne_nil (Utf8.decode_ne_nil (List.cons_ne_nil byte bytes))
    have hrefill : reader.refill = (none, ⟨(c :: rest).toArray, 0, false, line.input⟩) := by
      rw [refill, hfault, hbytes]
      dsimp only
      rw [hdecode, h.1]
    rw [hrefill]
    refine .inr ⟨c, rest, hfault, hbytes ▸ hdecode, fill_of_not (fun hneeds => ?_) _⟩
    exact absurd hneeds.2 (by simp)

/-- Behind the lines that are needed the answer is settled. -/
theorem next?_of_fill {fault? : Option String} {next : LineReader}
    (h : reader.fill none = (fault?, next)) :
    reader.next? = if next.finished then some ⟨none, fault?, next⟩
      else (next.line[next.cursor]?).map fun c =>
        ⟨some c, fault?, { next with cursor := next.cursor + 1 }⟩ := by
  rw [next?, filled, h]

/-- A reader that follows a stream answers as the stream does, and follows it behind the answer. -/
theorem Follows.next?_eq (h : reader.Follows lines) :
    ∃ reading, reader.next? = some reading ∧
      reading.char? = (CharStream.next lines).char? ∧
      reading.fault? = (CharStream.next lines).fault? ∧
      reading.source.Follows (CharStream.next lines).source := by
  have hlength : reader.line.toList.length = reader.line.size := Array.length_toList
  by_cases hneeds : reader.NeedsLine
  · have hrest : lines.rest = [] := by
      rw [← h.rest_eq, List.drop_eq_nil_of_le (hlength ▸ hneeds.2)]
    rw [Lines.next_of_nil hrest (h.finished_eq ▸ hneeds.1), ← h.input_eq]
    rcases fill_of_needsLine hneeds none with
      ⟨hlast, hfill⟩ | ⟨c, rest, hfault, hdecode, hfill⟩
    · rw [Lines.start_of_isLast hlast, next?_of_fill hfill]
      refine ⟨_, rfl, rfl, rfl, ?_, rfl, rfl, fun _ => hneeds.2⟩
      exact List.drop_eq_nil_of_le (hlength ▸ hneeds.2)
    · rw [Lines.start_of_decode hfault hdecode, next?_of_fill hfill]
      exact ⟨_, rfl, rfl, rfl, rfl, rfl, rfl, nofun⟩
  · rw [next?_of_fill (fill_of_not hneeds none)]
    change ∃ reading : Reading LineReader, _ ∧ reading.char? = lines.next.char? ∧
      reading.fault? = lines.next.fault? ∧ reading.source.Follows lines.next.source
    cases hfinished : reader.finished with
    | true =>
      have hrest : lines.rest = [] := by
        rw [← h.rest_eq, List.drop_eq_nil_of_le (hlength ▸ h.size_le hfinished)]
      rw [Lines.next, hrest, ← h.finished_eq, hfinished]
      exact ⟨_, rfl, rfl, rfl, h⟩
    | false =>
      have hlt : reader.cursor < reader.line.size :=
        Nat.not_le.1 fun hle => hneeds ⟨hfinished, hle⟩
      have hrest : lines.rest = reader.line[reader.cursor] ::
          reader.line.toList.drop (reader.cursor + 1) := by
        rw [← h.rest_eq, List.drop_eq_getElem_cons (hlength ▸ hlt), Array.getElem_toList]
      rw [Lines.next, hrest, Array.getElem?_eq_getElem hlt]
      exact ⟨_, rfl, rfl, rfl, rfl, h.input_eq, hfinished.symm.trans h.finished_eq, nofun⟩

end Step

/-- At the start a reader follows the stream of its input. -/
theorem follows_ofEvents (events : List InputEvent) :
    (ofEvents events).Follows (.ofEvents events) :=
  ⟨rfl, rfl, rfl, fun _ => Nat.le_refl _⟩

/-- A reader follows the stream behind any number of requests, and all of them are answered. -/
theorem exists_after? (events : List InputEvent) (count : Nat) :
    ∃ reader, (ofEvents events).after? count = some reader ∧
      reader.Follows (CharStream.after (Lines.ofEvents events) count) := by
  induction count with
  | zero => exact ⟨_, rfl, follows_ofEvents events⟩
  | succ count ih =>
    obtain ⟨reader, hreader, hfollows⟩ := ih
    obtain ⟨reading, hreading, _, _, hsource⟩ := hfollows.next?_eq
    refine ⟨reading.source, ?_, hsource⟩
    rw [after?, hreader, Option.bind_some, hreading]
    rfl

end LineReader

end Kaleidoscope
