import Kaleidoscope.Proofs.Classes
import Kaleidoscope.Proofs.Cutting

/-!
# Gaps and spellings

What stands in a text: tokens, each as it is written, and gaps between them. Which characters are a
token and which are a gap is said here without a cursor: a token goes as far as it can, and a gap
consists of blanks and comments, each of which goes to the end of its line. The main statements say
that characters begin in one way only with a gap and a token behind it, and that a cursor in front
of them passes over the gap and cuts the token.
-/

namespace Kaleidoscope

/-- Whether some characters are a gap in front of others: blanks, and comments that go as far as
they can. -/
inductive IsGap : List Char → List Char → Prop where
  /-- A gap may be empty. -/
  | nil (behind : List Char) : IsGap [] behind
  /-- White space belongs to a gap. -/
  | blank {c : Char} {gap behind : List Char} (hc : Unicode.isWhiteSpace c = true)
    (h : IsGap gap behind) : IsGap (c :: gap) behind
  /-- A comment, which only the end of its line or of the text stops, belongs to a gap. -/
  | comment {body gap behind : List Char} (hbody : ∀ c ∈ body, Cursor.isComment c = true)
    (hstops : Stops Cursor.isComment (gap ++ behind)) (h : IsGap gap behind) :
    IsGap ('#' :: (body ++ gap)) behind

namespace IsGap

/-- What goes on behind the characters behind a gap does not matter unless it lengthens a comment
there. -/
theorem extend {gap behind : List Char} (h : IsGap gap behind) {tail : List Char}
    (htail : Stops Cursor.isComment tail) : IsGap gap (behind ++ tail) := by
  induction h with
  | nil => exact nil _
  | blank hc _ ih => exact blank hc ih
  | comment hbody hstops _ ih =>
    refine comment hbody ?_ ih
    rw [← List.append_assoc]
    exact hstops.append htail

/-- Two gaps are one, unless a comment in the first goes on in the second. -/
theorem append {gap gap' behind : List Char} (h : IsGap gap []) (h' : IsGap gap' behind)
    (hstops' : Stops Cursor.isComment (gap' ++ behind)) : IsGap (gap ++ gap') behind := by
  generalize hnil : ([] : List Char) = front at h
  induction h with
  | nil => exact h'
  | blank hc _ ih => exact blank hc (ih hnil)
  | @comment body gap _ hbody hstops _ ih =>
    subst hnil
    rw [List.cons_append, List.append_assoc]
    refine comment hbody ?_ (ih rfl)
    rw [List.append_nil] at hstops
    rw [List.append_assoc]
    exact hstops.append hstops'

/-- Blanks are a gap. -/
theorem of_blanks {blanks : List Char} (h : ∀ c ∈ blanks, Unicode.isWhiteSpace c = true)
    {gap behind : List Char} (hgap : IsGap gap behind) : IsGap (blanks ++ gap) behind := by
  induction blanks with
  | nil => exact hgap
  | cons c blanks ih =>
    exact blank (h c List.mem_cons_self) (ih fun d hd => h d (List.mem_cons_of_mem _ hd))

/-- A gap in front of what belongs to none is where it is whatever it is found in. -/
theorem append_inj {gap behind gap' behind' : List Char} (h : IsGap gap behind)
    (h' : IsGap gap' behind') (hsolid : Cursor.Solid behind) (hsolid' : Cursor.Solid behind')
    (heq : gap ++ behind = gap' ++ behind') : gap = gap' ∧ behind = behind' := by
  have hcomment : Unicode.isWhiteSpace '#' = false := by decide
  induction h generalizing gap' with
  | nil =>
    cases h' with
    | nil => exact ⟨rfl, heq⟩
    | blank hc =>
      rw [List.nil_append] at heq
      have hblank := hsolid.blank _ (by rw [heq]; rfl)
      rw [hc] at hblank
      cases hblank
    | comment =>
      rw [List.nil_append] at heq
      exact absurd (by rw [heq]; rfl) hsolid.comment
  | blank hc _ ih =>
    cases h' with
    | nil =>
      rw [List.nil_append] at heq
      have hblank := hsolid'.blank _ (by rw [← heq]; rfl)
      rw [hc] at hblank
      cases hblank
    | blank _ h' =>
      rw [List.cons_append, List.cons_append] at heq
      obtain ⟨rfl, hrest⟩ := List.cons.inj heq
      obtain ⟨rfl, rfl⟩ := ih h' hsolid hrest
      exact ⟨rfl, rfl⟩
    | comment =>
      obtain ⟨rfl, _⟩ := List.cons.inj heq
      rw [hcomment] at hc
      cases hc
  | comment hbody hstops _ ih =>
    cases h' with
    | nil =>
      rw [List.nil_append] at heq
      exact absurd (by rw [← heq]; rfl) hsolid'.comment
    | blank hc =>
      obtain ⟨rfl, _⟩ := List.cons.inj heq
      rw [hcomment] at hc
      cases hc
    | comment hbody' hstops' h' =>
      rw [List.cons_append, List.cons_append, List.append_assoc, List.append_assoc] at heq
      have hrest := (List.cons.inj heq).2
      obtain ⟨rfl, hgap⟩ := hstops.append_inj hstops' hbody hbody' hrest
      obtain ⟨rfl, rfl⟩ := ih h' hsolid hgap
      exact ⟨rfl, rfl⟩

end IsGap

/-- All characters begin with a gap, and what is behind it belongs to none. -/
theorem exists_isGap (chars : List Char) :
    ∃ gap behind, chars = gap ++ behind ∧ IsGap gap behind ∧ Cursor.Solid behind := by
  induction hlength : chars.length using Nat.strong_induction_on generalizing chars with
  | _ length ih =>
    cases chars with
    | nil => exact ⟨[], [], rfl, .nil [], stops_nil _, nofun⟩
    | cons c rest =>
      subst hlength
      rw [List.length_cons] at ih
      by_cases hc : Unicode.isWhiteSpace c = true
      · obtain ⟨gap, behind, rfl, hgap, hsolid⟩ := ih _ (Nat.lt_succ_self _) rest rfl
        exact ⟨c :: gap, behind, rfl, .blank hc hgap, hsolid⟩
      · rw [Bool.not_eq_true] at hc
        by_cases hcomment : c = '#'
        · subst hcomment
          have hsplit := List.takeWhile_append_dropWhile (p := Cursor.isComment) (l := rest)
          have hle := (List.dropWhile_suffix Cursor.isComment (l := rest)).length_le
          obtain ⟨gap, behind, hdrop, hgap, hsolid⟩ := ih _ (Nat.lt_succ_of_le hle) _ rfl
          refine ⟨'#' :: (rest.takeWhile Cursor.isComment ++ gap), behind, ?_, ?_, hsolid⟩
          · rw [List.cons_append, List.append_assoc, ← hdrop, hsplit]
          · refine .comment (fun c hc => List.mem_takeWhile_imp hc) ?_ hgap
            rw [← hdrop]
            exact stops_dropWhile _ _
        · refine ⟨[], c :: rest, rfl, .nil _, stops_cons hc rest, ?_⟩
          rw [List.head?_cons, Ne, Option.some.injEq]
          exact hcomment

/-- How a token is written. -/
inductive Spelling where
  /-- A word, by its first character and the others. -/
  | word (first : Char) (others : List Char)
  /-- A numeral, by its first character and the others. -/
  | numeral (first : Char) (others : List Char)
  /-- A character by itself. -/
  | symbol (c : Char)

namespace Spelling

/-- The characters of a token. -/
def chars : Spelling → List Char
  | word first others => first :: others
  | numeral first others => first :: others
  | symbol c => [c]

/-- The token that is written so. Two words are tokens of their own. -/
def token : Spelling → Token
  | word first others =>
    if first :: others = ['d', 'e', 'f'] then .definitionWord
    else if first :: others = ['e', 'x', 't', 'e', 'r', 'n'] then .externWord
    else .identifier (String.ofList (first :: others))
  | numeral first others => .number (Numeral.value (first :: others))
  | symbol c => .character c

/-- Whether a token is written so in front of some characters: its characters are of the right kind,
and a word or a numeral goes as far as it can. -/
def Fits (behind : List Char) : Spelling → Prop
  | word first others =>
    Unicode.isAlphabetic first = true ∧ (∀ c ∈ others, Cursor.isWordPart c = true) ∧
      Stops Cursor.isWordPart behind
  | numeral first others =>
    (∀ c ∈ first :: others, Numeral.isPart c = true) ∧ Stops Numeral.isPart behind
  | symbol c => isSymbol c = true

/-- The end of input is not written. -/
theorem token_ne_endOfInput (spelling : Spelling) : spelling.token ≠ .endOfInput := by
  cases spelling with
  | word first others =>
    rw [token]
    split
    · exact Token.noConfusion
    · split <;> exact Token.noConfusion
  | numeral first others => exact Token.noConfusion
  | symbol c => exact Token.noConfusion

/-- Every token is written with some character. -/
theorem chars_ne_nil (spelling : Spelling) : spelling.chars ≠ [] := by
  cases spelling <;> exact List.cons_ne_nil _ _

/-- The token of a word. -/
theorem token_word (first : Char) (others : List Char) :
    (word first others).token = Cursor.word (first :: others) := by
  have hdefinition : String.ofList (first :: others) = "def" ↔
      first :: others = ['d', 'e', 'f'] := by
    rw [← String.toList_inj, String.toList_ofList]
    rfl
  have hexternal : String.ofList (first :: others) = "extern" ↔
      first :: others = ['e', 'x', 't', 'e', 'r', 'n'] := by
    rw [← String.toList_inj, String.toList_ofList]
    rfl
  unfold Cursor.word
  split
  · next heq => exact if_pos (hdefinition.1 heq)
  · next heq =>
    have hne : first :: others ≠ ['d', 'e', 'f'] := by
      rw [hexternal.1 heq]
      decide
    rw [token, if_neg hne, if_pos (hexternal.1 heq)]
  · next hne hne' => rw [token, if_neg (mt hdefinition.2 hne), if_neg (mt hexternal.2 hne')]

/-- No token begins as a gap does. -/
theorem Fits.solid {spelling : Spelling} {behind : List Char} (h : spelling.Fits behind)
    (rest : List Char) : Cursor.Solid (spelling.chars ++ rest) := by
  have hclasses : ∀ {c : Char} {others : List Char}, Unicode.isWhiteSpace c = false → c ≠ '#' →
      Cursor.Solid (c :: others) := by
    intro c others hblank hcomment
    refine ⟨stops_cons hblank others, ?_⟩
    rw [List.head?_cons, Ne, Option.some.injEq]
    exact hcomment
  cases spelling with
  | word first others =>
    obtain ⟨hblank, hcomment⟩ := Unicode.classes_of_isAlphabetic h.1
    exact hclasses hblank hcomment
  | numeral first others =>
    obtain ⟨hblank, hcomment, _⟩ := Numeral.classes_of_isPart (h.1 first List.mem_cons_self)
    exact hclasses hblank hcomment
  | symbol c =>
    obtain ⟨hblank, hcomment, _⟩ := classes_of_isSymbol h
    exact hclasses hblank hcomment

/-- More characters at the end of the text do not matter unless they lengthen a word or a numeral
there. -/
theorem Fits.extend {spelling : Spelling} {behind tail : List Char} (h : spelling.Fits behind)
    (hword : Stops Cursor.isWordPart tail) (hpart : Stops Numeral.isPart tail) :
    spelling.Fits (behind ++ tail) := by
  cases spelling with
  | word first others => exact ⟨h.1, h.2.1, h.2.2.append hword⟩
  | numeral first others => exact ⟨h.1, h.2.append hpart⟩
  | symbol c => exact h

/-- The first character of a token tells its kind, and the kind tells where it ends. -/
theorem Fits.append_inj {spelling spelling' : Spelling} {behind behind' : List Char}
    (h : spelling.Fits behind) (h' : spelling'.Fits behind')
    (heq : spelling.chars ++ behind = spelling'.chars ++ behind') :
    spelling = spelling' ∧ behind = behind' := by
  cases spelling with
  | word first others =>
    obtain ⟨hfirst, hothers, hstops⟩ := h
    cases spelling' with
    | word first' others' =>
      obtain ⟨_, hothers', hstops'⟩ := h'
      obtain ⟨rfl, hrest⟩ := List.cons.inj heq
      obtain ⟨rfl, rfl⟩ := hstops.append_inj hstops' hothers hothers' hrest
      exact ⟨rfl, rfl⟩
    | numeral first' others' =>
      obtain ⟨rfl, _⟩ := List.cons.inj heq
      obtain ⟨_, _, halphabetic⟩ := Numeral.classes_of_isPart (h'.1 first List.mem_cons_self)
      rw [hfirst] at halphabetic
      cases halphabetic
    | symbol c =>
      obtain ⟨rfl, _⟩ := List.cons.inj heq
      obtain ⟨_, _, halphabetic, _⟩ := classes_of_isSymbol h'
      rw [hfirst] at halphabetic
      cases halphabetic
  | numeral first others =>
    obtain ⟨hparts, hstops⟩ := h
    have hfirst := hparts first List.mem_cons_self
    cases spelling' with
    | word first' others' =>
      obtain ⟨rfl, _⟩ := List.cons.inj heq
      obtain ⟨_, _, halphabetic⟩ := Numeral.classes_of_isPart hfirst
      rw [h'.1] at halphabetic
      cases halphabetic
    | numeral first' others' =>
      obtain ⟨hchars, rfl⟩ := hstops.append_inj h'.2 hparts h'.1 heq
      obtain ⟨rfl, rfl⟩ := List.cons.inj hchars
      exact ⟨rfl, rfl⟩
    | symbol c =>
      obtain ⟨rfl, _⟩ := List.cons.inj heq
      obtain ⟨_, _, _, hpart⟩ := classes_of_isSymbol h'
      rw [hfirst] at hpart
      cases hpart
  | symbol c =>
    obtain ⟨_, _, halphabetic, hpart⟩ := classes_of_isSymbol h
    cases spelling' with
    | word first' others' =>
      obtain ⟨rfl, _⟩ := List.cons.inj heq
      rw [h'.1] at halphabetic
      cases halphabetic
    | numeral first' others' =>
      obtain ⟨rfl, _⟩ := List.cons.inj heq
      rw [h'.1 c List.mem_cons_self] at hpart
      cases hpart
    | symbol c' =>
      obtain ⟨rfl, rfl⟩ := List.cons.inj heq
      exact ⟨rfl, rfl⟩

/-- What belongs to no gap begins with a token. -/
theorem exists_fits {c : Char} {rest : List Char} (h : Cursor.Solid (c :: rest)) :
    ∃ (spelling : Spelling) (behind : List Char),
      c :: rest = spelling.chars ++ behind ∧ spelling.Fits behind := by
  by_cases halphabetic : Unicode.isAlphabetic c = true
  · refine ⟨.word c (rest.takeWhile Cursor.isWordPart), rest.dropWhile Cursor.isWordPart, ?_,
      halphabetic, fun d hd => List.mem_takeWhile_imp hd, stops_dropWhile _ _⟩
    rw [chars, List.cons_append, List.takeWhile_append_dropWhile]
  · by_cases hpart : Numeral.isPart c = true
    · refine ⟨.numeral c (rest.takeWhile Numeral.isPart), rest.dropWhile Numeral.isPart, ?_,
        fun d hd => ?_, stops_dropWhile _ _⟩
      · rw [chars, List.cons_append, List.takeWhile_append_dropWhile]
      · rcases List.mem_cons.1 hd with rfl | hd
        · exact hpart
        · exact List.mem_takeWhile_imp hd
    · refine ⟨.symbol c, rest, rfl, ?_⟩
      rw [Bool.not_eq_true] at halphabetic hpart
      have hcomment : c ≠ '#' := fun hc => h.comment (congrArg some hc)
      simp only [Fits, isSymbol, h.blank c rfl, halphabetic, hpart, bne_iff_ne.2 hcomment,
        Bool.not_false, Bool.and_self]

end Spelling

namespace Cursor

variable {σ : Type} [CharStream σ] {cursor : Cursor σ} {place : Position}

/-- A gap is passed over. -/
theorem Stands.skipGap {gap behind : List Char} (hgap : IsGap gap behind) (hsolid : Solid behind)
    (h : cursor.Stands (gap ++ behind) place) :
    cursor.skipGap.Stands behind (place.past gap) := by
  induction hgap generalizing cursor place with
  | nil =>
    rw [List.nil_append] at h
    rw [skipGap_of_solid (by rw [h.chars_eq]; exact hsolid)]
    exact h
  | blank hc _ ih =>
    rw [skipGap_of_cons h.chars_eq hc]
    exact ih hsolid h.advance
  | comment hbody hstops _ ih =>
    rw [skipGap_of_comment h.chars_eq, Position.past_cons, Position.past_append]
    have hbehind := h.advance
    rw [List.append_eq, List.append_assoc] at hbehind
    exact ih hsolid (hbehind.skipWhile hbody hstops)

/-- A token is cut as it is written. -/
theorem Stands.cut {spelling : Spelling} {behind : List Char} (hfits : spelling.Fits behind)
    (h : cursor.Stands (spelling.chars ++ behind) place) :
    cursor.cut.token = spelling.token ∧
      cursor.cut.cursor.Stands behind (place.past spelling.chars) := by
  have hcurrent := fun {c : Char} {rest : List Char} (hchars : cursor.chars = c :: rest) =>
    current?_of_cons hchars
  cases spelling with
  | word first others =>
    obtain ⟨hfirst, hothers, hstops⟩ := hfits
    obtain ⟨hchars, hstands⟩ := h.advance.takeWhile hothers hstops [first]
    rw [Cursor.cut, hcurrent h.chars_eq]
    dsimp only
    rw [if_pos hfirst, hchars, Spelling.token_word]
    exact ⟨rfl, hstands⟩
  | numeral first others =>
    obtain ⟨hparts, hstops⟩ := hfits
    have hfirst := hparts first List.mem_cons_self
    obtain ⟨hchars, hstands⟩ := h.advance.takeWhile
      (fun c hc => hparts c (List.mem_cons_of_mem _ hc)) hstops [first]
    obtain ⟨_, _, halphabetic⟩ := Numeral.classes_of_isPart hfirst
    rw [Cursor.cut, hcurrent h.chars_eq]
    dsimp only
    rw [halphabetic, if_neg Bool.false_ne_true, if_pos hfirst, hchars]
    exact ⟨rfl, hstands⟩
  | symbol c =>
    obtain ⟨_, _, halphabetic, hpart⟩ := classes_of_isSymbol hfits
    rw [Cursor.cut, hcurrent h.chars_eq]
    dsimp only
    rw [halphabetic, hpart, if_neg Bool.false_ne_true, if_neg Bool.false_ne_true]
    exact ⟨rfl, h.advance⟩

/-- The next token is the one behind the gap, and its place is where the gap leads to. -/
theorem Stands.scan {gap behind : List Char} {spelling : Spelling}
    (hgap : IsGap gap (spelling.chars ++ behind)) (hfits : spelling.Fits behind)
    (h : cursor.Stands (gap ++ (spelling.chars ++ behind)) place) :
    cursor.scan.lexeme = ⟨spelling.token, place.past gap⟩ ∧
      cursor.scan.cursor.Stands behind (place.past (gap ++ spelling.chars)) := by
  have hhere := h.skipGap hgap (hfits.solid behind)
  obtain ⟨htoken, hstands⟩ := hhere.cut hfits
  rw [Position.past_append]
  refine ⟨?_, hstands.report _⟩
  rw [Cursor.scan, htoken, hhere.place_eq]

/-- Where only a gap is left the next token is the end of input. -/
theorem Stands.scan_end {gap : List Char} (hgap : IsGap gap []) (h : cursor.Stands gap place) :
    cursor.scan.lexeme = ⟨.endOfInput, place.past gap⟩ ∧
      cursor.scan.cursor.Stands [] (place.past gap) := by
  rw [← List.append_nil gap] at h
  have hhere := h.skipGap hgap ⟨stops_nil _, nofun⟩
  have hcut : cursor.skipGap.cut = ⟨.endOfInput, cursor.skipGap⟩ := by
    rw [Cursor.cut, current?_of_nil hhere.chars_eq]
  rw [Cursor.scan, hcut, hhere.place_eq]
  exact ⟨rfl, hhere.report _⟩

end Cursor

end Kaleidoscope
