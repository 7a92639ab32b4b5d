import Kaleidoscope.Event
import Kaleidoscope.Number.Numeral
import Kaleidoscope.Stream.Basic
import Kaleidoscope.Unicode.Alphabetic
import Kaleidoscope.Unicode.Numeric
import Kaleidoscope.Unicode.WhiteSpace

/-!
# Cutting a stream into tokens

A cursor stands on one character that has been fetched and not yet used. It begins on a blank
before the first column, so that the first character is fetched when the first token is asked for
and no earlier, and once the stream has ended it never asks again. A token is the longest word or
numeral at the cursor, or a single character; blanks and comments before it are passed over.
-/

namespace Kaleidoscope

/-- A place in a stream, and what has been reported on the way. -/
structure Cursor (σ : Type) where
  /-- The stream behind the current character. -/
  source : σ
  /-- The current character, or none once the stream has ended. -/
  current? : Option Char
  /-- The place of the current character. -/
  place : Position
  /-- The reports so far, the oldest first. -/
  log : Array Event

namespace Cursor

variable {σ : Type}

/-- A cursor before the first character of a stream. -/
def start (source : σ) : Cursor σ := ⟨source, some ' ', ⟨1, 0⟩, #[]⟩

/-- Adds a report. -/
def report (cursor : Cursor σ) (event : Event) : Cursor σ :=
  { cursor with log := cursor.log.push event }

variable [CharStream σ]

/-- A bound on the steps before the end: the characters to come, and the current one. -/
def size (cursor : Cursor σ) : Nat :=
  match cursor.current? with
  | none => 0
  | some _ => CharStream.remaining cursor.source + 1

/-- The cursor on the answer to a request. -/
def moved (cursor : Cursor σ) (place : Position) (reading : Reading σ) : Cursor σ :=
  ⟨reading.source, reading.char?, place,
    match reading.fault? with
    | none => cursor.log
    | some reason => cursor.log.push (.inputFailed reason)⟩

/-- Moves to the next character. At the end of the stream there is nowhere to go. -/
def advance (cursor : Cursor σ) : Cursor σ :=
  match cursor.current? with
  | none => cursor
  | some c => cursor.moved (cursor.place.after c) (CharStream.next cursor.source)

/-- A step from a character comes nearer to the end. -/
theorem size_advance_lt {cursor : Cursor σ} {c : Char} (h : cursor.current? = some c) :
    cursor.advance.size < cursor.size := by
  have hnext := CharStream.remaining_next cursor.source
  simp only [advance, h, moved, size]
  split
  · exact Nat.succ_pos _
  · next d hd => exact Nat.succ_lt_succ (hnext d hd)

/-- Passes over the characters of a class. -/
def skipWhile (isMember : Char → Bool) (cursor : Cursor σ) : Cursor σ :=
  match _h : cursor.current? with
  | none => cursor
  | some c => if isMember c then cursor.advance.skipWhile isMember else cursor
termination_by cursor.size
decreasing_by exact size_advance_lt _h

/-- Passing over characters does not lead away from the end. -/
theorem size_skipWhile_le (isMember : Char → Bool) (cursor : Cursor σ) :
    (cursor.skipWhile isMember).size ≤ cursor.size := by
  fun_induction skipWhile isMember cursor with
  | case1 => exact Nat.le_refl _
  | case2 cursor c h _ ih => exact Nat.le_trans ih (Nat.le_of_lt (size_advance_lt h))
  | case3 => exact Nat.le_refl _

/-- A run of characters, and the cursor behind it. -/
structure Run (σ : Type) where
  /-- The characters, in order. -/
  chars : List Char
  /-- The cursor on the first character that is not among them. -/
  cursor : Cursor σ

/-- Takes the characters of a class; those taken before are given in reverse. -/
def takeWhile (isMember : Char → Bool) (taken : List Char) (cursor : Cursor σ) : Run σ :=
  match _h : cursor.current? with
  | none => ⟨taken.reverse, cursor⟩
  | some c =>
    if isMember c then cursor.advance.takeWhile isMember (c :: taken)
    else ⟨taken.reverse, cursor⟩
termination_by cursor.size
decreasing_by exact size_advance_lt _h

/-- Taking characters does not lead away from the end. -/
theorem size_takeWhile_le (isMember : Char → Bool) (taken : List Char) (cursor : Cursor σ) :
    (cursor.takeWhile isMember taken).cursor.size ≤ cursor.size := by
  fun_induction takeWhile isMember taken cursor with
  | case1 => exact Nat.le_refl _
  | case2 taken cursor c h _ ih => exact Nat.le_trans ih (Nat.le_of_lt (size_advance_lt h))
  | case3 => exact Nat.le_refl _

/-- Whether a character belongs to a comment once it has begun: all but the two that end a line
do. -/
def isComment (c : Char) : Bool := c != '\n' && c != '\r'

/-- Whether a character may stand in a word behind the first one. -/
def isWordPart (c : Char) : Bool := Unicode.isAlphabetic c || Unicode.isNumeric c

/-- Passes over white space and comments. -/
def skipGap (cursor : Cursor σ) : Cursor σ :=
  let here := cursor.skipWhile Unicode.isWhiteSpace
  if _h : here.current? = some '#' then (here.advance.skipWhile isComment).skipGap
  else here
termination_by cursor.size
decreasing_by
  exact Nat.lt_of_le_of_lt (size_skipWhile_le _ _)
    (Nat.lt_of_lt_of_le (size_advance_lt _h) (size_skipWhile_le _ _))

/-- Passing over a gap does not lead away from the end. -/
theorem size_skipGap_le (cursor : Cursor σ) : cursor.skipGap.size ≤ cursor.size := by
  fun_induction skipGap cursor with
  | case1 cursor here h ih =>
    exact Nat.le_trans ih (Nat.le_trans (size_skipWhile_le _ _)
      (Nat.le_trans (Nat.le_of_lt (size_advance_lt h)) (size_skipWhile_le _ _)))
  | case2 cursor here h => exact size_skipWhile_le _ _

/-- The token of a word. -/
def word (chars : List Char) : Token :=
  match String.ofList chars with
  | "def" => .definitionWord
  | "extern" => .externWord
  | name => .identifier name

/-- A token that has been cut out. -/
structure Cut (σ : Type) where
  /-- The token. -/
  token : Token
  /-- The cursor behind it. -/
  cursor : Cursor σ

/-- Cuts the token that begins at the cursor. -/
def cut (cursor : Cursor σ) : Cut σ :=
  match cursor.current? with
  | none => ⟨.endOfInput, cursor⟩
  | some c =>
    if Unicode.isAlphabetic c then
      let run := cursor.advance.takeWhile isWordPart [c]
      ⟨word run.chars, run.cursor⟩
    else if Numeral.isPart c then
      let run := cursor.advance.takeWhile Numeral.isPart [c]
      ⟨.number (Numeral.value run.chars), run.cursor⟩
    else ⟨.character c, cursor.advance⟩

/-- A token other than the end of input brings the cursor nearer to the end. -/
theorem size_cut_lt {cursor : Cursor σ} (h : cursor.cut.token ≠ .endOfInput) :
    cursor.cut.cursor.size < cursor.size := by
  revert h
  rw [cut]
  split
  · intro h
    exact absurd rfl h
  · next c hc =>
    intro _
    split
    · exact Nat.lt_of_le_of_lt (size_takeWhile_le _ _ _) (size_advance_lt hc)
    · split
      · exact Nat.lt_of_le_of_lt (size_takeWhile_le _ _ _) (size_advance_lt hc)
      · exact size_advance_lt hc

/-- Cutting a token does not lead away from the end. -/
theorem size_cut_le (cursor : Cursor σ) : cursor.cut.cursor.size ≤ cursor.size := by
  cases h : cursor.current? with
  | none =>
    have hcut : cursor.cut = ⟨.endOfInput, cursor⟩ := by unfold cut; rw [h]
    exact Nat.le_of_eq (by rw [hcut])
  | some c =>
    apply Nat.le_of_lt
    apply size_cut_lt
    unfold cut
    rw [h]
    dsimp only
    split
    · dsimp only [word]
      split <;> exact Token.noConfusion
    · split <;> exact Token.noConfusion

/-- A token with its place, and the cursor behind it. -/
structure Scan (σ : Type) where
  /-- The token and its place. -/
  lexeme : Lexeme
  /-- The cursor behind it. -/
  cursor : Cursor σ

/-- Passes over a gap, cuts the token behind it, and reports it. At the end of the stream the token
is the end of input, as often as it is asked for. -/
def scan (cursor : Cursor σ) : Scan σ :=
  let here := cursor.skipGap
  let cut := here.cut
  let lexeme : Lexeme := ⟨cut.token, here.place⟩
  ⟨lexeme, cut.cursor.report (.lexed lexeme)⟩

/-- A token other than the end of input brings the cursor nearer to the end. -/
theorem size_scan_lt {cursor : Cursor σ} (h : cursor.scan.lexeme.token ≠ .endOfInput) :
    cursor.scan.cursor.size < cursor.size :=
  Nat.lt_of_lt_of_le (size_cut_lt h) (size_skipGap_le cursor)

/-- Cutting a token does not lead away from the end. -/
theorem size_scan_le (cursor : Cursor σ) : cursor.scan.cursor.size ≤ cursor.size :=
  Nat.le_trans (size_cut_le cursor.skipGap) (size_skipGap_le cursor)

end Cursor

end Kaleidoscope
