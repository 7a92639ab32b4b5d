import Kaleidoscope.Stream.Basic
import Kaleidoscope.Text.Utf8

/-!
# Lines from a byte input

An input delivers bytes in portions of any size, may be interrupted, may have nothing to deliver
for the moment, and may fail. It is read a line at a time, and a line only when a character of it
is needed, so that nobody has to type the next line before this one has been dealt with. Each line
is decoded by itself. The first line that is empty or fails ends the stream for good.
-/

namespace Kaleidoscope

/-- What a byte input does when it is asked for a portion. -/
inductive InputEvent where
  /-- It delivers bytes; no byte at all is an end for the moment. -/
  | bytes (portion : List UInt8)
  /-- It is interrupted, and has to be asked again. -/
  | interrupted
  /-- It fails, for the given reason. -/
  | failed (reason : String)

/-- A byte input: the rest of the last portion, and what happens next. In the end it has nothing
to deliver. -/
structure ByteInput where
  /-- The bytes of the last portion that have not been taken. -/
  buffer : List UInt8
  /-- What the input does from here on. -/
  events : List InputEvent

namespace ByteInput

/-- The bytes that an event can deliver. -/
def eventSize : InputEvent → Nat
  | .bytes portion => portion.length
  | _ => 0

/-- The bytes that some events can deliver. -/
def eventsSize : List InputEvent → Nat
  | [] => 0
  | event :: events => eventSize event + eventsSize events

/-- The bytes that are still to be had. -/
def size (input : ByteInput) : Nat := input.buffer.length + eventsSize input.events

end ByteInput

/-- One line taken from a byte input. -/
structure Line where
  /-- The bytes taken, through the line feed unless an end or a failure came first. -/
  bytes : List UInt8
  /-- The reason, when the input failed. -/
  fault? : Option String
  /-- The input after the line. -/
  input : ByteInput

namespace Line

/-- The line feed. -/
def lineFeed : UInt8 := 10

/-- Splits a portion after its first line feed. Without one there is no second part. -/
def split : List UInt8 → List UInt8 × Option (List UInt8)
  | [] => ([], none)
  | byte :: rest =>
    if byte = lineFeed then ([byte], some rest)
    else (byte :: (split rest).1, (split rest).2)

/-- A line that has begun earlier. -/
def precededBy (line : Line) (bytes : List UInt8) : Line :=
  { line with bytes := bytes ++ line.bytes }

/-- Takes a line: the buffer comes first, then what the events deliver, up to a line feed, an end
for the moment, or a failure. -/
def read (buffer : List UInt8) (events : List InputEvent) : Line :=
  match (split buffer).2, events with
  | some rest, events => ⟨(split buffer).1, none, ⟨rest, events⟩⟩
  | none, [] => ⟨buffer, none, ⟨[], []⟩⟩
  | none, .interrupted :: events => (read [] events).precededBy buffer
  | none, .failed reason :: events => ⟨buffer, some reason, ⟨[], events⟩⟩
  | none, .bytes [] :: events => ⟨buffer, none, ⟨[], events⟩⟩
  | none, .bytes (byte :: portion) :: events =>
    (read (byte :: portion) events).precededBy buffer

/-- Takes one line from an input. -/
def ofInput (input : ByteInput) : Line := read input.buffer input.events

/-- Splitting keeps every byte. -/
theorem length_split (portion : List UInt8) :
    (split portion).1.length + ((split portion).2.getD []).length = portion.length := by
  induction portion with
  | nil => rfl
  | cons byte rest ih =>
    simp only [split]
    split
    · simp only [List.length_cons, List.length_nil, Option.getD_some]
      omega
    · simp only [List.length_cons]
      omega

/-- Taking a line keeps every byte. -/
theorem size_read (buffer : List UInt8) (events : List InputEvent) :
    (read buffer events).bytes.length + (read buffer events).input.size =
      ByteInput.size ⟨buffer, events⟩ := by
  fun_induction read buffer events with
  | case1 buffer events rest hsplit =>
    have hlength := length_split buffer
    rw [hsplit, Option.getD_some] at hlength
    simp only [ByteInput.size]
    omega
  | case2 buffer hsplit => rfl
  | case3 buffer events hsplit ih =>
    simp only [precededBy, ByteInput.size, ByteInput.eventsSize, ByteInput.eventSize,
      List.length_append, List.length_nil] at ih ⊢
    omega
  | case4 buffer reason events hsplit =>
    simp only [ByteInput.size, ByteInput.eventsSize, ByteInput.eventSize, List.length_nil]
  | case5 buffer events hsplit =>
    simp only [ByteInput.size, ByteInput.eventsSize, ByteInput.eventSize, List.length_nil]
  | case6 buffer byte portion events hsplit ih =>
    simp only [precededBy, ByteInput.size, ByteInput.eventsSize, ByteInput.eventSize,
      List.length_append] at ih ⊢
    omega

/-- Taking a line keeps every byte of the input. -/
theorem size_ofInput (input : ByteInput) :
    (ofInput input).bytes.length + (ofInput input).input.size = input.size :=
  size_read input.buffer input.events

end Line

/-- The characters of a byte input, line by line. -/
structure Lines where
  /-- The characters of the current line that have not been delivered. -/
  rest : List Char
  /-- The input below the current line. -/
  input : ByteInput
  /-- The bytes taken from the input. -/
  taken : Nat
  /-- Whether an empty or failed line has ended the stream. -/
  finished : Bool

namespace Lines

/-- The stream of an input of which nothing has been taken. -/
def ofEvents (events : List InputEvent) : Lines := ⟨[], ⟨[], events⟩, 0, false⟩

/-- Starts on a line that has just been taken. -/
def start (lines : Lines) (line : Line) : Reading Lines :=
  let taken := lines.taken + line.bytes.length
  match line.fault?, Utf8.decode line.bytes with
  | none, c :: rest => ⟨some c, none, ⟨rest, line.input, taken, false⟩⟩
  | fault?, _ => ⟨none, fault?, ⟨[], line.input, taken, true⟩⟩

/-- Delivers the next character of the line, and takes a line first when there is none. -/
def next (lines : Lines) : Reading Lines :=
  match lines.rest with
  | c :: rest => ⟨some c, none, { lines with rest }⟩
  | [] =>
    if lines.finished then ⟨none, none, lines⟩ else lines.start (Line.ofInput lines.input)

instance : CharStream Lines where
  next := next
  pulled := taken
  remaining lines := lines.rest.length + lines.input.size
  remaining_next lines c h := by
    revert h
    rw [next]
    split
    · next d rest hrest =>
      intro _
      simp only [hrest, List.length_cons]
      omega
    · next hrest =>
      split
      · intro h
        exact nomatch h
      · rw [start]
        split
        · next d rest hfault hdecode =>
          intro _
          have hdecoded := Utf8.length_decode (Line.ofInput lines.input).bytes
          have hsize := Line.size_ofInput lines.input
          rw [hdecode, List.length_cons] at hdecoded
          simp only [hrest, List.length_nil]
          omega
        · intro h
          exact nomatch h

end Lines

end Kaleidoscope
