import Kaleidoscope.Number.Integer
import Kaleidoscope.Proofs.Number.ReadBack

/-!
# Texts of integers

A text is an integer of a range if it consists of digits, with or without a sign in front of them,
and their number lies in the range. Any other text has a fault, which is decided by the first
character that is no digit or with which the number leaves the range. The main statements are that
the readers of integers accept exactly the first, and refuse the others for this fault.
-/

namespace Kaleidoscope.Integer

open Numeral

/-- Whether a text is made of some digits, which read as a number. -/
structure Spells (digits : List Char) (number : Nat) : Prop where
  /-- There is a digit. -/
  ne_nil : digits ≠ []
  /-- There is nothing else. -/
  isDigit : ∀ c ∈ digits, c.isDigit = true
  /-- They read as the number. -/
  natural_eq : natural digits = number

/-- Whether a text is a natural number: digits, with or without a plus sign in front of them. -/
inductive IsNatural (number : Nat) : List Char → Prop where
  /-- Digits alone. -/
  | bare {digits : List Char} (hdigits : Spells digits number) : IsNatural number digits
  /-- A plus sign in front of them. -/
  | plus {digits : List Char} (hdigits : Spells digits number) : IsNatural number ('+' :: digits)

/-- Whether a text is an integer: a natural number, or a minus sign in front of digits. -/
inductive IsInteger : Int → List Char → Prop where
  /-- A natural number. -/
  | natural {number : Nat} {text : List Char} (hnatural : IsNatural number text) :
    IsInteger number text
  /-- A minus sign in front of digits. -/
  | minus {number : Nat} {digits : List Char} (hdigits : Spells digits number) :
    IsInteger (-number) ('-' :: digits)

/-- The first character of a text that is no digit, or with which the number of the digits exceeds a
bound, as a fault. -/
inductive Breaks (greatest : Nat) : List Char → Fault → Prop where
  /-- A character that is no digit comes first. -/
  | other {front behind : List Char} {c : Char} (hfront : ∀ d ∈ front, d.isDigit = true)
    (hle : natural front ≤ greatest) (hc : c.isDigit = false) :
    Breaks greatest (front ++ c :: behind) .invalidDigit
  /-- A digit with which the number exceeds the bound comes first. -/
  | above {front behind : List Char} (hfront : ∀ d ∈ front, d.isDigit = true)
    (hlt : greatest < natural front) : Breaks greatest (front ++ behind) .tooLarge

/-- Why a text is no natural number up to a bound. -/
inductive NotNatural (greatest : Nat) : List Char → Fault → Prop where
  /-- There is nothing. -/
  | empty : NotNatural greatest [] .empty
  /-- There is nothing behind the sign. -/
  | sign : NotNatural greatest ['+'] .invalidDigit
  /-- Something is wrong behind the sign. -/
  | plus {digits : List Char} {fault : Fault} (h : Breaks greatest digits fault) :
    NotNatural greatest ('+' :: digits) fault
  /-- Something is wrong where there is no sign. -/
  | bare {text : List Char} {fault : Fault} (hsign : text.head? ≠ some '+')
    (h : Breaks greatest text fault) : NotNatural greatest text fault

/-- Why a text is no integer of a range that goes as far below zero as above it, and one further. -/
inductive NotInteger (greatest : Nat) : List Char → Fault → Prop where
  /-- There is nothing behind the minus sign. -/
  | sign : NotInteger greatest ['-'] .invalidDigit
  /-- A character that is no digit comes first behind it. -/
  | other {digits : List Char} (h : Breaks (greatest + 1) digits .invalidDigit) :
    NotInteger greatest ('-' :: digits) .invalidDigit
  /-- A digit with which the integer is below the range comes first behind it. -/
  | below {digits : List Char} (h : Breaks (greatest + 1) digits .tooLarge) :
    NotInteger greatest ('-' :: digits) .tooSmall
  /-- There is no minus sign, and the text is no natural number up to the bound. -/
  | natural {text : List Char} {fault : Fault} (hsign : text.head? ≠ some '-')
    (h : NotNatural greatest text fault) : NotInteger greatest text fault

/-- A further digit is added to ten times the number. -/
theorem natural_concat (digits : List Char) (c : Char) :
    natural (digits ++ [c]) = natural digits * 10 + (c.toNat - '0'.toNat) := by
  rw [natural, List.foldl_append]
  rfl

/-- Digits in front of others read as no more than all of them. -/
theorem natural_le_append (front behind : List Char) :
    natural front ≤ natural (front ++ behind) := by
  rw [natural_append]
  have hpow : 0 < 10 ^ behind.length := Nat.pow_pos (by decide)
  exact Nat.le_add_right_of_le (Nat.le_mul_of_pos_right _ hpow)

section Reading

variable {greatest : Nat} {done front : List Char}

/-- A digit is read if the number does not exceed the bound with it. -/
theorem readUp_cons {c : Char} (hc : c.isDigit = true) (rest : List Char) :
    readUp greatest (natural done) (c :: rest) =
      if greatest < natural (done ++ [c]) then .error .tooLarge
      else readUp greatest (natural (done ++ [c])) rest := by
  rw [readUp, digit?, if_pos hc, natural_concat]

/-- Any number of digits are read if the number does not exceed the bound with them. -/
theorem readUp_append (hfront : ∀ c ∈ front, c.isDigit = true)
    (hle : natural (done ++ front) ≤ greatest) (rest : List Char) :
    readUp greatest (natural done) (front ++ rest) =
      readUp greatest (natural (done ++ front)) rest := by
  induction front generalizing done with
  | nil => rw [List.nil_append, List.append_nil]
  | cons c front ih =>
    obtain ⟨hc, hfront⟩ := List.forall_mem_cons.1 hfront
    rw [List.append_cons] at hle ⊢
    have hfirst := Nat.le_trans (natural_le_append (done ++ [c]) front) hle
    rw [List.cons_append, readUp_cons hc, if_neg (Nat.not_lt.2 hfirst)]
    exact ih hfront hle

/-- Digits with which the number exceeds the bound are refused. -/
theorem readUp_of_lt (hfront : ∀ c ∈ front, c.isDigit = true) (hdone : natural done ≤ greatest)
    (hlt : greatest < natural (done ++ front)) (rest : List Char) :
    readUp greatest (natural done) (front ++ rest) = .error .tooLarge := by
  induction front generalizing done with
  | nil =>
    rw [List.append_nil] at hlt
    exact absurd hlt (Nat.not_lt.2 hdone)
  | cons c front ih =>
    obtain ⟨hc, hfront⟩ := List.forall_mem_cons.1 hfront
    rw [List.append_cons] at hlt
    rw [List.cons_append, readUp_cons hc]
    split
    · rfl
    · next hfirst => exact ih hfront (Nat.not_lt.1 hfirst) hlt

/-- What is wrong with the digits of a text is found. -/
theorem Breaks.readUp_eq {text : List Char} {fault : Fault} (h : Breaks greatest text fault) :
    readUp greatest 0 text = .error fault := by
  cases h with
  | other hfront hle hc =>
    have hread := @readUp_append greatest [] _ hfront hle
    rw [List.nil_append] at hread
    refine (hread _).trans ?_
    rw [readUp, digit?, hc, if_neg Bool.false_ne_true]
  | above hfront hlt => exact @readUp_of_lt greatest [] _ hfront (Nat.zero_le _) hlt _

/-- Digits are read as their number if it does not exceed the bound. -/
theorem readUp_of_isDigit {digits : List Char} (h : ∀ c ∈ digits, c.isDigit = true)
    (hle : natural digits ≤ greatest) : readUp greatest 0 digits = .ok (natural digits) := by
  have hread := @readUp_append greatest [] digits h hle []
  rw [List.append_nil, List.nil_append] at hread
  exact hread

/-- A text consists of digits whose number does not exceed the bound, or something is wrong
with it. -/
theorem isDigit_or_breaks (greatest : Nat) (text : List Char) :
    ((∀ c ∈ text, c.isDigit = true) ∧ natural text ≤ greatest) ∨
      ∃ fault, Breaks greatest text fault := by
  have hfront : ∀ c ∈ text.takeWhile Char.isDigit, c.isDigit = true :=
    fun c hc => List.mem_takeWhile_imp hc
  have htext := List.takeWhile_append_dropWhile (p := Char.isDigit) (l := text)
  rcases Nat.lt_or_ge greatest (natural (text.takeWhile Char.isDigit)) with hlt | hle
  · rw [← htext]
    exact .inr ⟨_, .above hfront hlt⟩
  · cases hrest : text.dropWhile Char.isDigit with
    | nil =>
      rw [hrest, List.append_nil] at htext
      rw [htext] at hfront hle
      exact .inl ⟨hfront, hle⟩
    | cons c behind =>
      have hc : c.isDigit = false := by
        have hhead := List.head?_dropWhile_not Char.isDigit text
        rw [hrest] at hhead
        simpa using hhead
      rw [hrest] at htext
      rw [← htext]
      exact .inr ⟨_, .other hfront hle hc⟩

variable {text : List Char} {fault : Fault}

/-- Behind a sign of its own, or without one, a natural number is read as its digits are. -/
theorem readNatural_bare (hne : text ≠ []) (hsign : text.head? ≠ some '+') :
    readNatural greatest text = readUp greatest 0 text := by
  unfold readNatural
  split
  · exact absurd rfl hne
  · exact absurd rfl hsign
  · exact absurd rfl hsign
  · rfl

/-- Behind a plus sign the digits are read. -/
theorem readNatural_plus (hne : text ≠ []) :
    readNatural greatest ('+' :: text) = readUp greatest 0 text := by
  cases text with
  | nil => exact absurd rfl hne
  | cons c rest => rfl

/-- Digits do not begin with a sign. -/
theorem Spells.head?_ne {digits : List Char} {number : Nat} (h : Spells digits number) {c : Char}
    (hc : c.isDigit = false) : digits.head? ≠ some c := by
  intro hhead
  have hmem := h.isDigit c (List.mem_of_mem_head? hhead)
  rw [hc] at hmem
  cases hmem

/-- Nothing is wrong with no character at all. -/
theorem Breaks.ne_nil (h : Breaks greatest text fault) : text ≠ [] := by
  cases h with
  | other => exact List.append_ne_nil_of_right_ne_nil _ (List.cons_ne_nil _ _)
  | @above front _ _ hlt =>
    intro hnil
    rw [(List.append_eq_nil_iff.1 hnil).1] at hlt
    exact absurd hlt (Nat.not_lt_zero _)

/-- Digits are read as their number. -/
theorem Spells.readUp_eq {digits : List Char} {number : Nat} (h : Spells digits number)
    (hle : number ≤ greatest) : readUp greatest 0 digits = .ok number := by
  obtain ⟨_, hdigits, rfl⟩ := h
  exact readUp_of_isDigit hdigits hle

/-- A natural number up to the bound is read. -/
theorem IsNatural.readNatural_eq {number : Nat} (h : IsNatural number text)
    (hle : number ≤ greatest) : readNatural greatest text = .ok number := by
  cases h with
  | bare hdigits =>
    rw [readNatural_bare hdigits.ne_nil (hdigits.head?_ne rfl)]
    exact hdigits.readUp_eq hle
  | plus hdigits =>
    rw [readNatural_plus hdigits.ne_nil]
    exact hdigits.readUp_eq hle

/-- What is no natural number up to the bound is refused for its fault. -/
theorem NotNatural.readNatural_eq (h : NotNatural greatest text fault) :
    readNatural greatest text = .error fault := by
  cases h with
  | empty => rfl
  | sign => rfl
  | plus h =>
    rw [readNatural_plus h.ne_nil]
    exact h.readUp_eq
  | bare hsign h =>
    rw [readNatural_bare h.ne_nil hsign]
    exact h.readUp_eq

/-- Some characters are digits whose number does not exceed the bound, or something is wrong with
them. -/
theorem spells_or_breaks (greatest : Nat) (hne : text ≠ []) :
    (∃ number, Spells text number ∧ number ≤ greatest) ∨ ∃ fault, Breaks greatest text fault := by
  rcases isDigit_or_breaks greatest text with ⟨hdigits, hle⟩ | hbreaks
  · exact .inl ⟨_, ⟨hne, hdigits, rfl⟩, hle⟩
  · exact .inr hbreaks

/-- Every text is a natural number up to the bound or is refused for a fault. -/
theorem isNatural_or_notNatural (greatest : Nat) (text : List Char) :
    (∃ number, IsNatural number text ∧ number ≤ greatest) ∨
      ∃ fault, NotNatural greatest text fault := by
  by_cases hne : text = []
  · rw [hne]
    exact .inr ⟨_, .empty⟩
  · by_cases hsign : text.head? = some '+'
    · obtain ⟨rest, rfl⟩ := List.head?_eq_some_iff.1 hsign
      by_cases hrest : rest = []
      · rw [hrest]
        exact .inr ⟨_, .sign⟩
      · rcases spells_or_breaks greatest hrest with ⟨number, hdigits, hle⟩ | ⟨fault, hbreaks⟩
        · exact .inl ⟨number, .plus hdigits, hle⟩
        · exact .inr ⟨fault, .plus hbreaks⟩
    · rcases spells_or_breaks greatest hne with ⟨number, hdigits, hle⟩ | ⟨fault, hbreaks⟩
      · exact .inl ⟨number, .bare hdigits, hle⟩
      · exact .inr ⟨fault, .bare hsign hbreaks⟩

/-- Without a minus sign an integer is read as a natural number is. -/
theorem readSigned_natural (hsign : text.head? ≠ some '-') :
    readSigned greatest text = (readNatural greatest text).map Int.ofNat := by
  unfold readSigned
  split
  · exact absurd rfl hsign
  · exact absurd rfl hsign
  · rfl

/-- Behind a minus sign an integer is what the digits are below zero. -/
theorem readSigned_minus (hne : text ≠ []) :
    readSigned greatest ('-' :: text) =
      match readUp (greatest + 1) 0 text with
      | .ok total => .ok (-(total : Int))
      | .error .tooLarge => .error .tooSmall
      | .error fault => .error fault := by
  cases text with
  | nil => exact absurd rfl hne
  | cons c rest => rfl

/-- A natural number does not begin with a minus sign. -/
theorem IsNatural.head?_ne {number : Nat} (h : IsNatural number text) :
    text.head? ≠ some '-' := by
  cases h with
  | bare hdigits => exact hdigits.head?_ne rfl
  | plus hdigits => exact fun h => nomatch h

/-- An integer of the range is read. -/
theorem IsInteger.readSigned_eq {number : Int} (h : IsInteger number text)
    (hlow : -(greatest + 1 : Int) ≤ number) (hhigh : number ≤ greatest) :
    readSigned greatest text = .ok number := by
  cases h with
  | natural hnatural =>
    rw [readSigned_natural hnatural.head?_ne, hnatural.readNatural_eq (Int.ofNat_le.1 hhigh)]
    rfl
  | minus hdigits =>
    rw [readSigned_minus hdigits.ne_nil, hdigits.readUp_eq (by omega)]

/-- What is no integer of the range is refused for its fault. -/
theorem NotInteger.readSigned_eq (h : NotInteger greatest text fault) :
    readSigned greatest text = .error fault := by
  cases h with
  | sign => rfl
  | other h => rw [readSigned_minus h.ne_nil, h.readUp_eq]
  | below h => rw [readSigned_minus h.ne_nil, h.readUp_eq]
  | natural hsign h =>
    rw [readSigned_natural hsign, h.readNatural_eq]
    rfl

/-- Every text is an integer of the range or is refused for a fault. -/
theorem isInteger_or_notInteger (greatest : Nat) (text : List Char) :
    (∃ number, IsInteger number text ∧ -(greatest + 1 : Int) ≤ number ∧ number ≤ greatest) ∨
      ∃ fault, NotInteger greatest text fault := by
  by_cases hsign : text.head? = some '-'
  · obtain ⟨rest, rfl⟩ := List.head?_eq_some_iff.1 hsign
    by_cases hrest : rest = []
    · rw [hrest]
      exact .inr ⟨_, .sign⟩
    · rcases spells_or_breaks (greatest + 1) hrest with ⟨number, hdigits, hle⟩ | ⟨fault, hbreaks⟩
      · exact .inl ⟨_, .minus hdigits, by omega, by omega⟩
      · cases hbreaks with
        | other hfront hle hc => exact .inr ⟨_, .other (.other hfront hle hc)⟩
        | above hfront hlt => exact .inr ⟨_, .below (.above hfront hlt)⟩
  · rcases isNatural_or_notNatural greatest text with ⟨number, hnatural, hle⟩ | ⟨fault, hnot⟩
    · exact .inl ⟨number, .natural hnatural, by omega, Int.ofNat_le.2 hle⟩
    · exact .inr ⟨fault, .natural hsign hnot⟩

end Reading

end Kaleidoscope.Integer
