/-!
# Forgiving UTF-8

Bytes become characters one byte at a time. Between characters the decoder is `ready`; inside a
character of several bytes it remembers the bits so far, how many bytes are owed, and which range
the next byte must lie in. The longest run of bytes that could still have begun a character, and
then did not, becomes one replacement character, and the byte that broke it is looked at afresh.
A line feed is never part of a longer character, so decoding commutes with cutting after it.
-/

namespace Kaleidoscope.Utf8

/-- The character that stands for bytes that encode nothing. -/
def replacement : Char := '\uFFFD'

/-- Where the decoder stands between two bytes. -/
inductive State where
  /-- Between characters. -/
  | ready
  /-- Inside a character: its bits so far, the bytes owed after the next one, and the least and
  the greatest value of the next one. -/
  | inside (bits owed low high : Nat)

/-- The characters that a byte completes, and the state after it. -/
structure Step where
  /-- The completed characters, in order. -/
  chars : List Char
  /-- The state that follows. -/
  state : State

/-- The first byte of a character. The ranges of the second byte leave out overlong forms,
surrogates and everything above the last code point. -/
def first (byte : Nat) : Step :=
  if byte ≤ 0x7F then ⟨[Char.ofNat byte], .ready⟩
  else if byte < 0xC2 then ⟨[replacement], .ready⟩
  else if byte ≤ 0xDF then ⟨[], .inside (byte - 0xC0) 0 0x80 0xBF⟩
  else if byte = 0xE0 then ⟨[], .inside 0 1 0xA0 0xBF⟩
  else if byte = 0xED then ⟨[], .inside 0xD 1 0x80 0x9F⟩
  else if byte ≤ 0xEF then ⟨[], .inside (byte - 0xE0) 1 0x80 0xBF⟩
  else if byte = 0xF0 then ⟨[], .inside 0 2 0x90 0xBF⟩
  else if byte ≤ 0xF3 then ⟨[], .inside (byte - 0xF0) 2 0x80 0xBF⟩
  else if byte = 0xF4 then ⟨[], .inside 4 2 0x80 0x8F⟩
  else ⟨[replacement], .ready⟩

/-- One byte from any state. A byte that cannot go on leaves a replacement character for what came
before it, and is a first byte itself. -/
def State.step (state : State) (byte : Nat) : Step :=
  match state with
  | .ready => first byte
  | .inside bits owed low high =>
    if low ≤ byte ∧ byte ≤ high then
      match owed with
      | 0 => ⟨[Char.ofNat (bits * 64 + (byte - 0x80))], .ready⟩
      | owed + 1 => ⟨[], .inside (bits * 64 + (byte - 0x80)) owed 0x80 0xBF⟩
    else
      ⟨replacement :: (first byte).chars, (first byte).state⟩

/-- What an interrupted character leaves when the bytes end. -/
def State.flush : State → List Char
  | .ready => []
  | .inside .. => [replacement]

/-- The characters of the bytes that follow a state. -/
def State.decode (state : State) : List UInt8 → List Char
  | [] => state.flush
  | byte :: bytes =>
    (state.step byte.toNat).chars ++ (state.step byte.toNat).state.decode bytes

/-- The characters of a sequence of bytes. -/
def decode (bytes : List UInt8) : List Char :=
  State.ready.decode bytes

/-- A first byte completes one character or begins one. -/
theorem length_first (byte : Nat) :
    (first byte).chars.length + (first byte).state.flush.length = 1 := by
  unfold first
  repeat' split
  all_goals rfl

/-- A byte adds at most one character to what the state already owes. -/
theorem State.length_step (state : State) (byte : Nat) :
    (state.step byte).chars.length + (state.step byte).state.flush.length ≤
      state.flush.length + 1 := by
  cases state with
  | ready =>
    have h := length_first byte
    simp only [step, flush, List.length_nil] at h ⊢
    omega
  | inside bits owed low high =>
    have h := length_first byte
    simp only [step]
    split
    · cases owed <;> simp only [flush, List.length_cons, List.length_nil] <;> omega
    · simp only [flush, List.length_cons, List.length_nil] at h ⊢
      omega

/-- From any state there are at most as many characters as bytes and one owed character. -/
theorem State.length_decode (state : State) (bytes : List UInt8) :
    (state.decode bytes).length ≤ state.flush.length + bytes.length := by
  induction bytes generalizing state with
  | nil => exact Nat.le_refl _
  | cons byte bytes ih =>
    have hstep := state.length_step byte.toNat
    have hrest := ih (state.step byte.toNat).state
    simp only [decode, List.length_append, List.length_cons]
    omega

/-- There are at most as many characters as bytes. -/
theorem length_decode (bytes : List UInt8) : (decode bytes).length ≤ bytes.length := by
  have h := State.ready.length_decode bytes
  simpa only [decode, State.flush, List.length_nil, Nat.zero_add] using h

end Kaleidoscope.Utf8
