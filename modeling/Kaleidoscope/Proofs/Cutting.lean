import Kaleidoscope.Token.Cursor
import Mathlib.Data.List.TakeWhile

/-!
# Standing in front of given characters

What a cursor does depends on the characters that its stream delivers before the first end, and on
nothing else about the stream. The statements here say, for any stream, how a cursor passes over a
run of characters, takes one, and passes over blanks, and where it stands afterwards.
-/

namespace Kaleidoscope

namespace Position

/-- The place behind some characters. -/
def past (place : Position) (chars : List Char) : Position := chars.foldl after place

/-- No character leads nowhere else. -/
@[simp] theorem past_nil (place : Position) : place.past [] = place := rfl

/-- The first character leads to the place from which the others go on. -/
@[simp] theorem past_cons (place : Position) (c : Char) (chars : List Char) :
    place.past (c :: chars) = (place.after c).past chars := rfl

/-- Characters behind others go on from where those lead to. -/
theorem past_append (place : Position) (front back : List Char) :
    place.past (front ++ back) = (place.past front).past back := List.foldl_append

end Position

namespace CharStream

variable {σ : Type} [CharStream σ]

/-- The characters that a stream delivers before its first end. -/
def chars (source : σ) : List Char :=
  match _h : (next source).char? with
  | none => []
  | some c => c :: chars (next source).source
termination_by remaining source
decreasing_by exact remaining_next source c _h

/-- Where a stream ends nothing is delivered. -/
theorem chars_of_none {source : σ} (h : (next source).char? = none) : chars source = [] := by
  rw [chars]
  split
  · rfl
  · next c hc => rw [h] at hc; cases hc

/-- A character is delivered in front of those behind it. -/
theorem chars_of_some {source : σ} {c : Char} (h : (next source).char? = some c) :
    chars source = c :: chars (next source).source := by
  rw [chars]
  split
  · next hnone => rw [h] at hnone; cases hnone
  · next d hd => rw [h] at hd; cases hd; rfl

/-- A text in memory delivers its rest. -/
theorem chars_text (text : Text) : chars text = text.rest := by
  obtain ⟨rest⟩ := text
  induction rest with
  | nil => exact chars_of_none rfl
  | cons c rest ih =>
    have hcons : chars (⟨c :: rest⟩ : Text) = c :: chars (⟨rest⟩ : Text) := chars_of_some rfl
    rw [hcons, ih]

end CharStream

/-- Whether no member of a class stands at the front of some characters. -/
def Stops (isMember : Char → Bool) (chars : List Char) : Prop :=
  ∀ c, chars.head? = some c → isMember c = false

/-- Where there is no character, no member of a class stands at the front. -/
theorem stops_nil (isMember : Char → Bool) : Stops isMember [] := by
  intro c hc
  cases hc

/-- The first character decides whether a member of a class stands at the front. -/
theorem stops_cons {isMember : Char → Bool} {c : Char} (h : isMember c = false)
    (rest : List Char) : Stops isMember (c :: rest) := by
  intro d hd
  cases hd
  exact h

/-- Of characters behind others the first one decides only when there are no others. -/
theorem Stops.append {isMember : Char → Bool} {front back : List Char}
    (hfront : Stops isMember front) (hback : Stops isMember back) :
    Stops isMember (front ++ back) := by
  cases front with
  | nil => exact hback
  | cons c front => exact stops_cons (hfront c rfl) _

/-- What follows the members at the front does not begin with one. -/
theorem stops_dropWhile (isMember : Char → Bool) (chars : List Char) :
    Stops isMember (chars.dropWhile isMember) := by
  intro c hc
  have hnot := List.head?_dropWhile_not isMember chars
  rw [hc] at hnot
  exact hnot

/-- The members at the front of some characters are taken up to what does not begin with one. -/
theorem Stops.takeWhile_and_dropWhile {isMember : Char → Bool} {front back : List Char}
    (hback : Stops isMember back) (hfront : ∀ c ∈ front, isMember c = true) :
    (front ++ back).takeWhile isMember = front ∧ (front ++ back).dropWhile isMember = back := by
  rw [List.takeWhile_append_of_pos hfront, List.dropWhile_append_of_pos hfront]
  cases back with
  | nil => exact ⟨List.append_nil front, rfl⟩
  | cons c rest =>
    have hc := Bool.eq_false_iff.1 (hback c rfl)
    rw [List.takeWhile_cons_of_neg hc, List.dropWhile_cons_of_neg hc, List.append_nil]
    exact ⟨rfl, rfl⟩

/-- A run of members that cannot go on is where it is whatever it is found in. -/
theorem Stops.append_inj {isMember : Char → Bool} {front back front' back' : List Char}
    (hback : Stops isMember back) (hback' : Stops isMember back')
    (hfront : ∀ c ∈ front, isMember c = true) (hfront' : ∀ c ∈ front', isMember c = true)
    (h : front ++ back = front' ++ back') : front = front' ∧ back = back' := by
  obtain ⟨htake, hdrop⟩ := hback.takeWhile_and_dropWhile hfront
  obtain ⟨htake', hdrop'⟩ := hback'.takeWhile_and_dropWhile hfront'
  rw [h] at htake hdrop
  exact ⟨htake.symm.trans htake', hdrop.symm.trans hdrop'⟩

namespace Cursor

variable {σ : Type} [CharStream σ] {cursor : Cursor σ}

/-- The characters in front of a cursor, up to the first end of its stream. -/
def chars (cursor : Cursor σ) : List Char :=
  match cursor.current? with
  | none => []
  | some c => c :: CharStream.chars cursor.source

/-- Where no character is left the stream has ended. -/
theorem current?_of_nil (h : cursor.chars = []) : cursor.current? = none := by
  unfold chars at h
  split at h
  · assumption
  · cases h

/-- The first character is the current one. -/
theorem current?_of_cons {c : Char} {rest : List Char} (h : cursor.chars = c :: rest) :
    cursor.current? = some c := by
  unfold chars at h
  split at h
  · cases h
  · next hcurrent =>
    cases h
    exact hcurrent

/-- Where a cursor stands: the characters in front of it and its place. -/
structure Stands (cursor : Cursor σ) (chars : List Char) (place : Position) : Prop where
  /-- These are the characters. -/
  chars_eq : cursor.chars = chars
  /-- This is the place. -/
  place_eq : cursor.place = place

/-- A cursor before a text stands on a blank. -/
theorem stands_start (text : String) :
    (start (Text.ofString text)).Stands (' ' :: text.toList) ⟨1, 0⟩ :=
  ⟨congrArg (' ' :: ·) (CharStream.chars_text (Text.ofString text)), rfl⟩

namespace Stands

variable {place : Position}

/-- A report does not move a cursor. -/
theorem report {chars : List Char} (h : cursor.Stands chars place) (event : Event) :
    (cursor.report event).Stands chars place := ⟨h.chars_eq, h.place_eq⟩

/-- A step leaves the characters behind the first one. -/
theorem advance {c : Char} {rest : List Char} (h : cursor.Stands (c :: rest) place) :
    cursor.advance.Stands rest (place.after c) := by
  have hcurrent := current?_of_cons h.chars_eq
  have hrest : CharStream.chars cursor.source = rest := by
    have hchars := h.chars_eq
    rw [chars, hcurrent] at hchars
    exact (List.cons.inj hchars).2
  rw [Cursor.advance, hcurrent]
  refine ⟨?_, congrArg (Position.after · c) h.place_eq⟩
  rw [← hrest, chars]
  cases hnext : (CharStream.next cursor.source).char? with
  | none =>
    rw [CharStream.chars_of_none hnext]
    simp only [moved, hnext]
  | some d =>
    rw [CharStream.chars_of_some hnext]
    simp only [moved, hnext]

end Stands

/-- A member of the class is passed over. -/
theorem skipWhile_of_cons {isMember : Char → Bool} {c : Char} {rest : List Char}
    (h : cursor.chars = c :: rest) (hc : isMember c = true) :
    cursor.skipWhile isMember = cursor.advance.skipWhile isMember := by
  rw [skipWhile]
  split
  · next hcurrent =>
    rw [current?_of_cons h] at hcurrent
    cases hcurrent
  · next d hcurrent =>
    rw [current?_of_cons h] at hcurrent
    cases hcurrent
    exact if_pos hc

/-- Where no member of the class is next, nothing is passed over. -/
theorem skipWhile_of_stops {isMember : Char → Bool} (h : Stops isMember cursor.chars) :
    cursor.skipWhile isMember = cursor := by
  rw [skipWhile]
  split
  · rfl
  · next c hcurrent =>
    have hc : isMember c = false := by
      apply h
      rw [chars, hcurrent]
      rfl
    exact if_neg (by rw [hc]; exact Bool.false_ne_true)

namespace Stands

variable {place : Position} {isMember : Char → Bool} {front back : List Char}

/-- The members of a class are passed over. -/
theorem skipWhile (hfront : ∀ c ∈ front, isMember c = true) (hback : Stops isMember back)
    (h : cursor.Stands (front ++ back) place) :
    (cursor.skipWhile isMember).Stands back (place.past front) := by
  induction front generalizing cursor place with
  | nil =>
    rw [List.nil_append] at h
    have hstops : Stops isMember cursor.chars := by rw [h.chars_eq]; exact hback
    rw [skipWhile_of_stops hstops]
    exact h
  | cons c front ih =>
    rw [skipWhile_of_cons h.chars_eq (hfront c List.mem_cons_self), Position.past_cons]
    exact ih (fun d hd => hfront d (List.mem_cons_of_mem _ hd)) h.advance

/-- The members of a class are taken. -/
theorem takeWhile (hfront : ∀ c ∈ front, isMember c = true) (hback : Stops isMember back)
    (h : cursor.Stands (front ++ back) place) (taken : List Char) :
    (cursor.takeWhile isMember taken).chars = taken.reverse ++ front ∧
      (cursor.takeWhile isMember taken).cursor.Stands back (place.past front) := by
  induction front generalizing cursor place taken with
  | nil =>
    rw [List.nil_append] at h
    rw [Cursor.takeWhile, List.append_nil]
    split
    · exact ⟨rfl, h⟩
    · next c hcurrent =>
      have hc : isMember c = false := by
        apply hback
        rw [← h.chars_eq, chars, hcurrent]
        rfl
      rw [if_neg (by rw [hc]; exact Bool.false_ne_true)]
      exact ⟨rfl, h⟩
  | cons d front ih =>
    have hcurrent := current?_of_cons h.chars_eq
    rw [Cursor.takeWhile]
    split
    · next hnone =>
      rw [hcurrent] at hnone
      cases hnone
    · next c hsome =>
      rw [hcurrent] at hsome
      cases hsome
      rw [if_pos (hfront d List.mem_cons_self)]
      have hrest := ih (fun c hc => hfront c (List.mem_cons_of_mem _ hc)) h.advance (d :: taken)
      rw [List.reverse_cons, List.append_assoc, List.singleton_append] at hrest
      exact hrest

end Stands

/-- A blank in front of a gap belongs to it. -/
theorem skipGap_of_cons {c : Char} {rest : List Char} (h : cursor.chars = c :: rest)
    (hc : Unicode.isWhiteSpace c = true) : cursor.skipGap = cursor.advance.skipGap := by
  rw [skipGap.eq_def cursor, skipGap.eq_def cursor.advance, skipWhile_of_cons h hc]

/-- A gap goes on with a comment. -/
theorem skipGap_of_comment {rest : List Char} (h : cursor.chars = '#' :: rest) :
    cursor.skipGap = (cursor.advance.skipWhile isComment).skipGap := by
  have hstops : Stops Unicode.isWhiteSpace cursor.chars := by
    rw [h]
    exact stops_cons (by decide) rest
  rw [skipGap, skipWhile_of_stops hstops]
  exact dif_pos (current?_of_cons h)

/-- Whether some characters begin with neither white space nor a comment. -/
structure Solid (chars : List Char) : Prop where
  /-- They do not begin with white space. -/
  blank : Stops Unicode.isWhiteSpace chars
  /-- They do not begin with a comment. -/
  comment : chars.head? ≠ some '#'

/-- Where neither a blank nor a comment is next, no gap is passed over. -/
theorem skipGap_of_solid (h : Solid cursor.chars) : cursor.skipGap = cursor := by
  rw [skipGap, skipWhile_of_stops h.blank]
  refine dif_neg fun hcomment => h.comment ?_
  rw [chars, hcomment]
  rfl

end Cursor

end Kaleidoscope
