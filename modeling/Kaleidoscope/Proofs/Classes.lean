import Kaleidoscope.Operators
import Kaleidoscope.Token.Cursor

/-!
# Classes of characters

How the classes of characters that decide about tokens lie to one another. White space, the sign of
a comment, what begins a word and what begins a numeral exclude one another, and everything else is
a token by itself.
-/

namespace Kaleidoscope

namespace Unicode

/-- White space is not alphabetic. -/
theorem isAlphabetic_of_isWhiteSpace {c : Char} (h : isWhiteSpace c = true) :
    isAlphabetic c = false := by
  have hall : ∀ range ∈ whiteSpaceRanges, ∀ code ∈ List.range' range.1 (range.2 + 1 - range.1),
      isAlphabetic (Char.ofNat code) = false := by decide +kernel
  obtain ⟨range, hrange, hfirst, hlast⟩ := (inRanges_iff _ _).1 h
  have hmem : c.toNat ∈ List.range' range.1 (range.2 + 1 - range.1) := by
    rw [List.mem_range'_1]
    omega
  have hc := hall range hrange c.toNat hmem
  rwa [Char.ofNat_toNat] at hc

/-- What begins a word begins no gap. -/
theorem classes_of_isAlphabetic {c : Char} (h : isAlphabetic c = true) :
    isWhiteSpace c = false ∧ c ≠ '#' := by
  constructor
  · cases hblank : isWhiteSpace c with
    | false => rfl
    | true =>
      rw [isAlphabetic_of_isWhiteSpace hblank] at h
      cases h
  · rintro rfl
    cases h

end Unicode

/-- What may stand in a numeral is an ASCII character. -/
theorem Numeral.toNat_lt_of_isPart {c : Char} (h : Numeral.isPart c = true) : c.toNat < 128 := by
  rw [Numeral.isPart, Bool.or_eq_true] at h
  rcases h with h | h
  · rw [Char.isDigit, Bool.and_eq_true, decide_eq_true_eq, decide_eq_true_eq] at h
    have hle : c.toNat ≤ '9'.toNat := h.2
    exact Nat.lt_of_le_of_lt hle (by decide)
  · rw [of_decide_eq_true h]
    decide

/-- What may stand in a numeral begins no gap and no word. -/
theorem Numeral.classes_of_isPart {c : Char} (h : Numeral.isPart c = true) :
    Unicode.isWhiteSpace c = false ∧ c ≠ '#' ∧ Unicode.isAlphabetic c = false := by
  have hall : ∀ code < 128, Numeral.isPart (Char.ofNat code) = true →
      Unicode.isWhiteSpace (Char.ofNat code) = false ∧ Char.ofNat code ≠ '#' ∧
        Unicode.isAlphabetic (Char.ofNat code) = false := by decide +kernel
  have hc := hall c.toNat (toNat_lt_of_isPart h)
  rw [Char.ofNat_toNat] at hc
  exact hc h

/-- Whether a character is a token by itself. -/
def isSymbol (c : Char) : Bool :=
  !Unicode.isWhiteSpace c && c != '#' && !Unicode.isAlphabetic c && !Numeral.isPart c

/-- A token by itself begins no gap, no word and no numeral. -/
theorem classes_of_isSymbol {c : Char} (h : isSymbol c = true) :
    Unicode.isWhiteSpace c = false ∧ c ≠ '#' ∧ Unicode.isAlphabetic c = false ∧
      Numeral.isPart c = false := by
  simp only [isSymbol, Bool.and_eq_true, Bool.not_eq_true', bne_iff_ne] at h
  exact ⟨h.1.1.1, h.1.1.2, h.1.2, h.2⟩

/-- Whether a character is a token by itself, and ends a word in front of it. -/
def isMark (c : Char) : Bool := isSymbol c && !Cursor.isWordPart c

/-- A character that may be an operator is an ASCII character. -/
theorem Config.toNat_lt_of_isOperatorCharacter {c : Char}
    (h : Config.isOperatorCharacter c = true) : c.toNat < 127 := by
  unfold Config.isOperatorCharacter at h
  simp only [Bool.and_eq_true, decide_eq_true_eq] at h
  have hle : c.toNat ≤ '~'.toNat := h.1.1.2
  exact Nat.lt_of_le_of_lt hle (by decide)

/-- A character that may be an operator is a mark. -/
theorem isMark_of_isOperatorCharacter {c : Char} (h : Config.isOperatorCharacter c = true) :
    isMark c = true := by
  have hall : ∀ code < 127, Config.isOperatorCharacter (Char.ofNat code) = true →
      isMark (Char.ofNat code) = true := by decide +kernel
  have hc := hall c.toNat (Config.toNat_lt_of_isOperatorCharacter h)
  rw [Char.ofNat_toNat] at hc
  exact hc h

/-- A character that may be an operator is a token by itself. -/
theorem isSymbol_of_isOperatorCharacter {c : Char} (h : Config.isOperatorCharacter c = true) :
    isSymbol c = true := (Bool.and_eq_true_iff.1 (isMark_of_isOperatorCharacter h)).1

end Kaleidoscope
