import Kaleidoscope.Proofs.Spelling
import Kaleidoscope.Proofs.Tape

/-!
# Dividing a text into tokens

A text is a sequence of gaps and tokens. The main statements say that every text is divided in one
way only, and that a cursor finds the tokens of this division, each at the place that the characters
in front of it lead to, whatever stream delivers the characters.
-/

namespace Kaleidoscope

/-- A text divided into tokens and the gaps around them. -/
inductive Division where
  /-- A gap at the end. -/
  | ending (gap : List Char)
  /-- A gap, a token behind it, and what follows. -/
  | next (gap : List Char) (spelling : Spelling) (rest : Division)

namespace Division

/-- The characters of a divided text. -/
def chars : Division → List Char
  | ending gap => gap
  | next gap spelling rest => gap ++ (spelling.chars ++ rest.chars)

/-- Whether every gap is one, and every token is written in front of what follows it as it is. -/
def Valid : Division → Prop
  | ending gap => IsGap gap []
  | next gap spelling rest =>
    IsGap gap (spelling.chars ++ rest.chars) ∧ spelling.Fits rest.chars ∧ rest.Valid

/-- The tokens of a divided text. -/
def tokens : Division → List Token
  | ending _ => []
  | next _ spelling rest => spelling.token :: rest.tokens

/-- The tokens of a divided text with their places, when the text begins at a place. -/
def lexemes (place : Position) : Division → List Lexeme
  | ending _ => []
  | next gap spelling rest =>
    ⟨spelling.token, place.past gap⟩ :: rest.lexemes (place.past (gap ++ spelling.chars))

/-- The tokens of a divided text with their places, and the end of input behind them. -/
def tape (place : Position) (division : Division) : List Lexeme :=
  division.lexemes place ++ [⟨.endOfInput, place.past division.chars⟩]

/-- The first token comes before those of the rest. -/
theorem tape_next (gap : List Char) (spelling : Spelling) (rest : Division) (place : Position) :
    (next gap spelling rest).tape place =
      ⟨spelling.token, place.past gap⟩ :: rest.tape (place.past (gap ++ spelling.chars)) := by
  simp only [tape, lexemes, chars, Position.past_append, List.cons_append]

/-- The places do not change the tokens. -/
theorem map_token_lexemes (division : Division) (place : Position) :
    (division.lexemes place).map Lexeme.token = division.tokens := by
  induction division generalizing place with
  | ending gap => rfl
  | next gap spelling rest ih => rw [lexemes, List.map_cons, ih, tokens]

/-- Every text can be divided. -/
theorem exists_valid (chars : List Char) :
    ∃ division : Division, division.Valid ∧ division.chars = chars := by
  induction hlength : chars.length using Nat.strong_induction_on generalizing chars with
  | _ length ih =>
    obtain ⟨gap, behind, rfl, hgap, hsolid⟩ := exists_isGap chars
    cases behind with
    | nil => exact ⟨ending gap, hgap, (List.append_nil gap).symm⟩
    | cons c rest =>
      obtain ⟨spelling, behind, hchars, hfits⟩ := Spelling.exists_fits hsolid
      rw [hchars] at hgap hlength ⊢
      have hlt : behind.length < length := by
        have hpos := List.length_pos_iff.2 spelling.chars_ne_nil
        rw [List.length_append, List.length_append] at hlength
        omega
      obtain ⟨division, hvalid, rfl⟩ := ih _ hlt behind rfl
      exact ⟨next gap spelling division, ⟨hgap, hfits, hvalid⟩, rfl⟩

/-- No text can be divided in two ways. -/
theorem Valid.eq_of_chars {division division' : Division} (h : division.Valid)
    (h' : division'.Valid) (heq : division.chars = division'.chars) : division = division' := by
  have hnil : Cursor.Solid [] := ⟨stops_nil _, nofun⟩
  induction division generalizing division' with
  | ending gap =>
    cases division' with
    | ending gap' => exact congrArg ending heq
    | next gap' spelling' rest' =>
      obtain ⟨hgap', hfits', _⟩ := h'
      have hgaps : gap ++ [] = gap' ++ (spelling'.chars ++ rest'.chars) := by
        rw [List.append_nil]
        exact heq
      have hnone := (h.append_inj hgap' hnil (hfits'.solid _) hgaps).2
      exact absurd (List.append_eq_nil_iff.1 hnone.symm).1 spelling'.chars_ne_nil
  | next gap spelling rest ih =>
    obtain ⟨hgap, hfits, hrest⟩ := h
    cases division' with
    | ending gap' =>
      have hgaps : gap ++ (spelling.chars ++ rest.chars) = gap' ++ [] := by
        rw [List.append_nil]
        exact heq
      have hnone := (hgap.append_inj h' (hfits.solid _) hnil hgaps).2
      exact absurd (List.append_eq_nil_iff.1 hnone).1 spelling.chars_ne_nil
    | next gap' spelling' rest' =>
      obtain ⟨hgap', hfits', hrest'⟩ := h'
      obtain ⟨rfl, hbehind⟩ := hgap.append_inj hgap' (hfits.solid _) (hfits'.solid _) heq
      obtain ⟨rfl, hchars⟩ := hfits.append_inj hfits' hbehind
      rw [ih hrest hrest' hchars]

/-- A divided text behind a gap, which becomes part of the first one. -/
def behindGap (front : List Char) : Division → Division
  | ending gap => ending (front ++ gap)
  | next gap spelling rest => next (front ++ gap) spelling rest

/-- The characters of a divided text behind a gap are those of the gap and those of the text. -/
theorem chars_behindGap (front : List Char) (division : Division) :
    (division.behindGap front).chars = front ++ division.chars := by
  cases division with
  | ending gap => rfl
  | next gap spelling rest => exact List.append_assoc front gap _

/-- A text may be divided behind blanks. -/
theorem Valid.behindBlanks {blanks : List Char}
    (hblanks : ∀ c ∈ blanks, Unicode.isWhiteSpace c = true) {division : Division}
    (h : division.Valid) : (division.behindGap blanks).Valid := by
  cases division with
  | ending gap => exact .of_blanks hblanks h
  | next gap spelling rest => exact ⟨.of_blanks hblanks h.1, h.2⟩

/-- A gap moves the tokens behind it. -/
theorem lexemes_behindGap (front : List Char) (division : Division) (place : Position) :
    (division.behindGap front).lexemes place = division.lexemes (place.past front) := by
  cases division with
  | ending gap => rfl
  | next gap spelling rest => simp only [behindGap, lexemes, Position.past_append]

/-- A gap moves the tokens behind it and the end of input. -/
theorem tape_behindGap (front : List Char) (division : Division) (place : Position) :
    (division.behindGap front).tape place = division.tape (place.past front) := by
  rw [tape, tape, lexemes_behindGap, chars_behindGap, Position.past_append]

end Division

namespace Cursor

variable {σ : Type} [CharStream σ] {cursor : Cursor σ} {place : Position}

/-- A cursor finds the tokens of a divided text. -/
theorem Stands.tape {division : Division} (hvalid : division.Valid)
    (h : cursor.Stands division.chars place) :
    (Feed.ofScan cursor.scan).tape = division.tape place := by
  induction division generalizing cursor place with
  | ending gap =>
    obtain ⟨hlexeme, _⟩ := h.scan_end hvalid
    have hend : (Feed.ofScan cursor.scan).lookahead.token = .endOfInput := by
      rw [Feed.ofScan, hlexeme]
    rw [Feed.tape_of_end hend, Feed.ofScan, hlexeme]
    rfl
  | next gap spelling rest ih =>
    obtain ⟨hgap, hfits, hrest⟩ := hvalid
    obtain ⟨hlexeme, hstands⟩ := h.scan hgap hfits
    have hne : (Feed.ofScan cursor.scan).lookahead.token ≠ .endOfInput := by
      rw [Feed.ofScan, hlexeme]
      exact spelling.token_ne_endOfInput
    have htape : (Feed.ofScan cursor.scan).advance.tape =
        rest.tape (place.past (gap ++ spelling.chars)) := ih hrest hstands
    rw [Feed.tape_of_ne hne, htape, Feed.ofScan, hlexeme, Division.tape_next]

/-- A listing from a cursor on gives the tokens of the divided text. -/
theorem Stands.lexemes {division : Division} (hvalid : division.Valid)
    (h : cursor.Stands division.chars place) (done : List Lexeme) :
    cursor.lexemes done = done.reverse ++ division.lexemes place := by
  rw [Feed.lexemes_ofScan, Feed.lexemes, h.tape hvalid, Division.tape, List.dropLast_concat]

/-- Behind the end of input a cursor stands where that is, and no character is left. -/
theorem stands_of_scan_end (h : cursor.scan.lexeme.token = .endOfInput) :
    cursor.scan.cursor.Stands [] cursor.scan.lexeme.position := by
  obtain ⟨division, hvalid, hchars⟩ := Division.exists_valid cursor.chars
  have hstands : cursor.Stands division.chars cursor.place := ⟨hchars.symm, rfl⟩
  cases division with
  | ending gap =>
    obtain ⟨hlexeme, hend⟩ := hstands.scan_end hvalid
    rw [hlexeme]
    exact hend
  | next gap spelling rest =>
    obtain ⟨hlexeme, _⟩ := hstands.scan hvalid.1 hvalid.2.1
    rw [hlexeme] at h
    exact absurd h spelling.token_ne_endOfInput

/-- Once the end of input has been cut it is cut again, at the same place. -/
theorem scan_cursor_scan (h : cursor.scan.lexeme.token = .endOfInput) :
    cursor.scan.cursor.scan.lexeme = cursor.scan.lexeme := by
  rw [((stands_of_scan_end h).scan_end (.nil [])).1, ← h]
  rfl

end Cursor

namespace Feed

variable {σ τ : Type} [CharStream σ] [CharStream τ]

/-- The tokens of a stream are those of its characters divided. -/
theorem tape_start {division : Division} (hvalid : division.Valid) {source : σ}
    (hchars : division.chars = CharStream.chars source) :
    (start source).tape = division.tape Position.first := by
  have hblanks : ∀ c ∈ [' '], Unicode.isWhiteSpace c = true := by
    intro c hc
    rw [List.mem_singleton.1 hc]
    decide
  -- A cursor begins on a blank in front of the first character.
  have hstands : (Cursor.start source).Stands (division.behindGap [' ']).chars ⟨1, 0⟩ := by
    rw [Division.chars_behindGap, hchars]
    exact ⟨rfl, rfl⟩
  rw [start, hstands.tape (hvalid.behindBlanks hblanks), Division.tape_behindGap]
  rfl

/-- Whether two feeds, of whatever streams, have the same tokens in front of them, now and when more
of them are asked for. -/
structure Alike (feed : Feed σ) (other : Feed τ) : Prop where
  /-- They have the same lookahead. -/
  lookahead_eq : feed.lookahead = other.lookahead
  /-- They have the same characters behind it. -/
  chars_eq : feed.cursor.chars = other.cursor.chars
  /-- They count them from the same place. -/
  place_eq : feed.cursor.place = other.cursor.place

/-- A report changes nothing but the log. -/
theorem alike_report (feed : Feed σ) (event : Event) : (feed.report event).Alike feed :=
  ⟨rfl, rfl, rfl⟩

namespace Alike

variable {feed : Feed σ} {other : Feed τ}

/-- Feeds that are alike have the same tokens behind the lookahead. -/
theorem advance (h : feed.Alike other) : feed.advance.Alike other.advance := by
  obtain ⟨division, hvalid, hchars⟩ := Division.exists_valid feed.cursor.chars
  have hfeed : feed.cursor.Stands division.chars feed.cursor.place := ⟨hchars.symm, rfl⟩
  have hother : other.cursor.Stands division.chars feed.cursor.place :=
    ⟨h.chars_eq.symm.trans hchars.symm, h.place_eq.symm⟩
  cases division with
  | ending gap =>
    obtain ⟨hlexeme, hend⟩ := hfeed.scan_end hvalid
    obtain ⟨hlexeme', hend'⟩ := hother.scan_end hvalid
    exact ⟨hlexeme.trans hlexeme'.symm, hend.chars_eq.trans hend'.chars_eq.symm,
      hend.place_eq.trans hend'.place_eq.symm⟩
  | next gap spelling rest =>
    obtain ⟨hlexeme, hrest⟩ := hfeed.scan hvalid.1 hvalid.2.1
    obtain ⟨hlexeme', hrest'⟩ := hother.scan hvalid.1 hvalid.2.1
    exact ⟨hlexeme.trans hlexeme'.symm, hrest.chars_eq.trans hrest'.chars_eq.symm,
      hrest.place_eq.trans hrest'.place_eq.symm⟩

/-- Feeds that are alike have the same tokens up to the end of input. -/
theorem tape_eq (h : feed.Alike other) : feed.tape = other.tape := by
  fun_induction tape feed generalizing other with
  | case1 feed hend =>
    have hother : other.lookahead.token = .endOfInput := by
      rw [← h.lookahead_eq]
      exact (Token.isEnd_iff _).1 hend
    rw [tape_of_end hother, h.lookahead_eq]
  | case2 feed hne ih =>
    have hother : other.lookahead.token ≠ .endOfInput := by
      rw [← h.lookahead_eq]
      exact mt (Token.isEnd_iff _).2 hne
    rw [tape_of_ne hother, ih h.advance, h.lookahead_eq]

end Alike

/-- Streams that deliver the same characters begin alike. -/
theorem alike_start {source : σ} {source' : τ}
    (h : CharStream.chars source = CharStream.chars source') :
    (start source).Alike (start source') := by
  have hbefore : Alike (⟨⟨.endOfInput, Position.first⟩, Cursor.start source⟩ : Feed σ)
      (⟨⟨.endOfInput, Position.first⟩, Cursor.start source'⟩ : Feed τ) :=
    ⟨rfl, congrArg (' ' :: ·) h, rfl⟩
  exact hbefore.advance

end Feed

/-- The tokens of a text and their places are those of the text divided. -/
theorem Lexeme.ofString_eq {division : Division} (hvalid : division.Valid) {text : String}
    (hchars : division.chars = text.toList) :
    Lexeme.ofString text = division.lexemes Position.first := by
  have hsource : CharStream.chars (Text.ofString text) = text.toList :=
    CharStream.chars_text (Text.ofString text)
  have htape : (Feed.start (Text.ofString text)).tape = division.tape Position.first :=
    Feed.tape_start hvalid (hchars.trans hsource.symm)
  rw [Lexeme.ofString, Feed.lexemes_ofScan, Feed.lexemes]
  rw [Feed.start] at htape
  rw [htape, Division.tape, List.dropLast_concat]
  rfl

/-- Every text is divided into gaps and tokens that go as far as they can in one way only, without
losing a character, and the tokens of the text are those of this division. -/
theorem Token.ofString_eq_tokens_division (text : String) :
    ∃ division : Division, (division.Valid ∧ division.chars = text.toList) ∧
      Token.ofString text = division.tokens ∧
      ∀ other : Division, other.Valid → other.chars = text.toList → other = division := by
  obtain ⟨division, hvalid, hchars⟩ := Division.exists_valid text.toList
  refine ⟨division, ⟨hvalid, hchars⟩, ?_, fun other hother hotherChars => ?_⟩
  · rw [Token.ofString, Lexeme.ofString_eq hvalid hchars, Division.map_token_lexemes]
  · exact hother.eq_of_chars hvalid (hotherChars.trans hchars.symm)

end Kaleidoscope
