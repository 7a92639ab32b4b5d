/-!
# Streams of characters

A stream delivers characters one at a time, on demand, and says how much input it has fetched to do
so. A stream may end and go on later; who reads it decides whether to ask again.
-/

namespace Kaleidoscope

/-- What a stream answers to one request. -/
structure Reading (σ : Type) where
  /-- The character, or none at an end. -/
  char? : Option Char
  /-- The reason, when the stream ended because its input could not be read. -/
  fault? : Option String
  /-- The stream after the request. -/
  source : σ

/-- A stream of characters that comes to an end. -/
class CharStream (σ : Type) where
  /-- Asks for the next character. -/
  next : σ → Reading σ
  /-- The bytes fetched from an underlying input so far. -/
  pulled : σ → Nat
  /-- A bound on the characters before the next end. -/
  remaining : σ → Nat
  /-- A delivered character lowers the bound. -/
  remaining_next : ∀ (source : σ) (c : Char), (next source).char? = some c →
    remaining (next source).source < remaining source

/-- A text in memory. It fetches nothing. -/
structure Text where
  /-- The characters that have not been delivered. -/
  rest : List Char

namespace Text

/-- A text from its first character on. -/
def ofString (text : String) : Text := ⟨text.toList⟩

/-- Delivers the first character of the rest. -/
def next : Text → Reading Text
  | ⟨[]⟩ => ⟨none, none, ⟨[]⟩⟩
  | ⟨c :: rest⟩ => ⟨some c, none, ⟨rest⟩⟩

instance : CharStream Text where
  next := next
  pulled _ := 0
  remaining text := text.rest.length
  remaining_next text c h := by
    cases text with
    | mk rest =>
      cases rest with
      | nil => exact nomatch h
      | cons d rest => exact Nat.lt_succ_self rest.length

end Text

/-- A sequence of answers fixed in advance. It may go on after an end. -/
structure Script where
  /-- The answers that have not been given. -/
  rest : List (Option Char)

namespace Script

/-- Gives the first answer of the rest, and an end when there is none. -/
def next : Script → Reading Script
  | ⟨[]⟩ => ⟨none, none, ⟨[]⟩⟩
  | ⟨answer :: rest⟩ => ⟨answer, none, ⟨rest⟩⟩

instance : CharStream Script where
  next := next
  pulled _ := 0
  remaining script := script.rest.length
  remaining_next script c h := by
    cases script with
    | mk rest =>
      cases rest with
      | nil => exact nomatch h
      | cons answer rest => exact Nat.lt_succ_self rest.length

end Script

end Kaleidoscope
