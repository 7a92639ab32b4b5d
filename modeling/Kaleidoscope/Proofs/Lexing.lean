import Kaleidoscope.Proofs.Division

/-!
# Cutting given characters

What a cursor makes of the characters in front of it: blanks are passed over, a word or a numeral is
cut as far as it goes, and any other character is a token by itself. The characters alone decide
which tokens follow, wherever they stand.
-/

namespace Kaleidoscope

/-- Whether a cursor in front of some characters delivers some tokens, wherever it stands. -/
def Lexes (chars : List Char) (tokens : List Token) : Prop :=
  ∀ cursor : Cursor Text, cursor.chars = chars → ∀ done,
    (cursor.lexemes done).map Lexeme.token = done.reverse.map Lexeme.token ++ tokens

/-- Whether some characters end a word or a numeral in front of them. -/
def Breaks (rest : List Char) : Prop :=
  ∀ c, rest.head? = some c → Cursor.isWordPart c = false ∧ Numeral.isPart c = false

/-- The end of the text ends a word or a numeral in front of it. -/
theorem breaks_nil : Breaks [] := by
  simp [Breaks]

/-- A character that belongs to no word and no numeral ends what is in front of it. -/
theorem breaks_cons {c : Char} (hword : Cursor.isWordPart c = false)
    (hpart : Numeral.isPart c = false) (rest : List Char) : Breaks (c :: rest) := by
  rintro d ⟨⟩
  exact ⟨hword, hpart⟩

namespace Lexes

open Cursor

/-- Without characters there is no token. -/
theorem nil : Lexes [] [] := by
  intro cursor h done
  have hvalid : (Division.ending []).Valid := IsGap.nil []
  have hstands : cursor.Stands (Division.ending []).chars cursor.place := ⟨h, rfl⟩
  rw [hstands.lexemes hvalid, List.map_append]
  rfl

/-- A blank has no effect. -/
theorem blank {c : Char} {rest : List Char} {tokens : List Token}
    (hc : Unicode.isWhiteSpace c = true) (h : Lexes rest tokens) : Lexes (c :: rest) tokens := by
  intro cursor hcursor done
  have hstands : cursor.Stands (c :: rest) cursor.place := ⟨hcursor, rfl⟩
  have hscan : cursor.scan = cursor.advance.scan := by
    rw [scan, skipGap_of_cons hcursor hc]
    rfl
  have hlexemes : cursor.lexemes done = cursor.advance.lexemes done := by
    rw [lexemes.eq_def done cursor, lexemes.eq_def done cursor.advance, hscan]
  rw [hlexemes]
  exact h _ hstands.advance.chars_eq done

/-- A token is cut as it is written, and the tokens of the characters behind it follow. -/
theorem of_fits {spelling : Spelling} {behind : List Char} {tokens : List Token}
    (hfits : spelling.Fits behind) (h : Lexes behind tokens) :
    Lexes (spelling.chars ++ behind) (spelling.token :: tokens) := by
  intro cursor hcursor done
  have hstands : cursor.Stands ([] ++ (spelling.chars ++ behind)) cursor.place := ⟨hcursor, rfl⟩
  obtain ⟨hlexeme, hbehind⟩ := hstands.scan (.nil _) hfits
  have hne : ¬cursor.scan.lexeme.token.isEnd = true := by
    rw [hlexeme, Token.isEnd_iff]
    exact spelling.token_ne_endOfInput
  rw [lexemes, dif_neg hne, h _ hbehind.chars_eq, hlexeme, List.reverse_cons, List.map_append,
    List.append_assoc]
  rfl

/-- A symbol is a token. -/
theorem symbol {c : Char} {rest : List Char} {tokens : List Token} (hc : isSymbol c = true)
    (h : Lexes rest tokens) : Lexes (c :: rest) (.character c :: tokens) :=
  @of_fits (.symbol c) _ _ hc h

/-- A mark is a token, and ends what is in front of it. -/
theorem mark {c : Char} {rest : List Char} {tokens : List Token} (hc : isMark c = true)
    (h : Lexes rest tokens) : Breaks (c :: rest) ∧ Lexes (c :: rest) (.character c :: tokens) := by
  simp only [isMark, Bool.and_eq_true, Bool.not_eq_true'] at hc
  obtain ⟨hsymbol, hword⟩ := hc
  obtain ⟨_, _, _, hpart⟩ := classes_of_isSymbol hsymbol
  exact ⟨breaks_cons hword hpart rest, symbol hsymbol h⟩

/-- A space is no token, and ends what is in front of it. -/
theorem space {rest : List Char} {tokens : List Token} (h : Lexes rest tokens) :
    Breaks (' ' :: rest) ∧ Lexes (' ' :: rest) tokens := by
  have hblank : Unicode.isWhiteSpace ' ' = true := by decide
  exact ⟨breaks_cons (by decide) (by decide) rest, blank hblank h⟩

/-- A word is cut as far as it goes. -/
theorem word {c : Char} {front back : List Char} {tokens : List Token}
    (hc : Unicode.isAlphabetic c = true) (hfront : ∀ d ∈ front, isWordPart d = true)
    (hback : Breaks back) (h : Lexes back tokens) :
    Lexes (c :: (front ++ back)) (Cursor.word (c :: front) :: tokens) := by
  have hfits : (Spelling.word c front).Fits back := ⟨hc, hfront, fun d hd => (hback d hd).1⟩
  rw [← Spelling.token_word]
  exact of_fits hfits h

/-- The word that begins a definition is cut. -/
theorem definitionWord {rest : List Char} {tokens : List Token} (h : Lexes rest tokens) :
    Lexes ("def ".toList ++ rest) (.definitionWord :: tokens) := by
  obtain ⟨hbreaks, hspace⟩ := space h
  have hword : ∀ d ∈ ['e', 'f'], isWordPart d = true := List.all_eq_true.1 rfl
  exact @word 'd' _ _ _ (by decide) hword hbreaks hspace

/-- The word that begins the declaration of an external function is a token. -/
theorem externWord {rest : List Char} {tokens : List Token} (h : Lexes rest tokens) :
    Lexes ("extern ".toList ++ rest) (.externWord :: tokens) := by
  obtain ⟨hbreaks, hspace⟩ := space h
  have hword : ∀ d ∈ ['x', 't', 'e', 'r', 'n'], isWordPart d = true := List.all_eq_true.1 rfl
  exact @word 'e' _ _ _ (by decide) hword hbreaks hspace

/-- A numeral is cut as far as it goes. -/
theorem numeral {front back : List Char} {tokens : List Token} (hne : front ≠ [])
    (hfront : ∀ d ∈ front, Numeral.isPart d = true) (hback : Breaks back)
    (h : Lexes back tokens) :
    Lexes (front ++ back) (.number (Numeral.value front) :: tokens) := by
  obtain ⟨c, front, rfl⟩ := List.exists_cons_of_ne_nil hne
  have hfits : (Spelling.numeral c front).Fits back := ⟨hfront, fun d hd => (hback d hd).2⟩
  exact of_fits hfits h

/-- The characters of a text decide its tokens. -/
theorem ofString {text : String} {tokens : List Token} (h : Lexes text.toList tokens) :
    Token.ofString text = tokens :=
  (space h).2 (Cursor.start (Text.ofString text)) (stands_start text).chars_eq []

end Lexes

/-- Whether a text is a name: a word that begins no form. -/
structure IsName (name : String) : Prop where
  /-- It begins with a letter, and letters and digits follow. -/
  exists_chars : ∃ c rest, name.toList = c :: rest ∧ Unicode.isAlphabetic c = true ∧
    ∀ d ∈ rest, Cursor.isWordPart d = true
  /-- It does not begin a definition. -/
  ne_definitionWord : name ≠ "def"
  /-- It does not begin the declaration of an external function. -/
  ne_externWord : name ≠ "extern"

/-- A letter is a name. -/
theorem isName_singleton {c : Char} (hc : Unicode.isAlphabetic c = true) :
    IsName (String.ofList [c]) := by
  have hlength : (String.ofList [c]).length = 1 := String.length_ofList
  refine ⟨⟨c, [], String.toList_ofList, hc, List.forall_mem_nil _⟩, ?_, ?_⟩
  · intro h
    rw [h] at hlength
    exact absurd hlength (by decide)
  · intro h
    rw [h] at hlength
    exact absurd hlength (by decide)

/-- Whether a number has a numeral: it is no negative number, and not what is not a number. -/
structure Double.HasNumeral (value : Double) : Prop where
  /-- It is a number. -/
  isNaN : value.isNaN = false
  /-- It has no sign. -/
  negative : value.negative = false

/-- Whether a token can be cut from a text. -/
def Token.IsCut : Token → Prop
  | identifier name => IsName name
  | number value => value.HasNumeral
  | _ => True

/-- The word of a name is the name. -/
theorem IsName.word_eq {name : String} (h : IsName name) :
    Cursor.word name.toList = .identifier name := by
  unfold Cursor.word
  rw [String.ofList_toList]
  split
  · exact absurd rfl h.ne_definitionWord
  · exact absurd rfl h.ne_externWord
  · rfl

/-- A name is cut as far as it goes. -/
theorem Lexes.name {name : String} (hname : IsName name) {back : List Char} {tokens : List Token}
    (hback : Breaks back) (h : Lexes back tokens) :
    Lexes (name.toList ++ back) (.identifier name :: tokens) := by
  obtain ⟨c, rest, hchars, hc, hrest⟩ := hname.exists_chars
  have hword := hname.word_eq
  rw [hchars] at hword ⊢
  have hlexes := Lexes.word hc hrest hback h
  rw [hword] at hlexes
  exact hlexes

/-- A numeral has no negative value. -/
theorem Numeral.hasNumeral_value (run : List Char) : (value run).HasNumeral := by
  refine ⟨?_, rfl⟩
  have hle : ∀ numerator denominator,
      Double.nearestRank numerator denominator ≤ Double.infinityRank :=
    fun numerator denominator => Nat.min_le_left _ _
  exact decide_eq_false (Nat.not_lt.2 (hle _ _))

namespace Cursor

variable {σ : Type} [CharStream σ]

/-- What is taken belongs to the class. -/
theorem exists_of_takeWhile (isMember : Char → Bool) (taken : List Char) (cursor : Cursor σ) :
    ∃ members, (cursor.takeWhile isMember taken).chars = taken.reverse ++ members ∧
      ∀ c ∈ members, isMember c = true := by
  fun_induction takeWhile isMember taken cursor with
  | case1 => exact ⟨[], (List.append_nil _).symm, by simp⟩
  | case2 taken cursor c h hc ih =>
    obtain ⟨members, hchars, hmembers⟩ := ih
    refine ⟨c :: members, ?_, fun d hd => ?_⟩
    · rw [hchars, List.reverse_cons, List.append_assoc, List.singleton_append]
    · rcases List.mem_cons.1 hd with rfl | hd
      · exact hc
      · exact hmembers d hd
  | case3 => exact ⟨[], (List.append_nil _).symm, by simp⟩

/-- Every token can be cut. -/
theorem isCut_cut (cursor : Cursor σ) : cursor.cut.token.IsCut := by
  unfold cut
  split
  · trivial
  · next c hcurrent =>
    split
    · next hc =>
      obtain ⟨members, hchars, hmembers⟩ := exists_of_takeWhile isWordPart [c] cursor.advance
      dsimp only
      rw [hchars]
      unfold word
      split
      · trivial
      · trivial
      · next hne hne' =>
        exact ⟨⟨c, members, String.toList_ofList, hc, hmembers⟩, hne, hne'⟩
    · split
      · exact Numeral.hasNumeral_value _
      · trivial

/-- All tokens from a cursor on can be cut. -/
theorem isCut_of_mem_lexemes {done : List Lexeme} (hdone : ∀ lexeme ∈ done, lexeme.token.IsCut)
    (cursor : Cursor σ) : ∀ lexeme ∈ cursor.lexemes done, lexeme.token.IsCut := by
  fun_induction lexemes done cursor with
  | case1 done cursor scan h => exact fun lexeme hmem => hdone lexeme (List.mem_reverse.1 hmem)
  | case2 done cursor scan h ih =>
    apply ih
    intro lexeme hmem
    rcases List.mem_cons.1 hmem with rfl | hmem
    · exact isCut_cut cursor.skipGap
    · exact hdone lexeme hmem

end Cursor

/-- All tokens of a text can be cut. -/
theorem Token.isCut_of_mem_ofString {text : String} {token : Token}
    (h : token ∈ Token.ofString text) : token.IsCut := by
  obtain ⟨lexeme, hmem, rfl⟩ := List.mem_map.1 h
  exact Cursor.isCut_of_mem_lexemes (by simp) _ lexeme hmem

/-- Whether a token is written in some way when a space follows it. -/
def Token.IsSpelled (token : Token) : Prop :=
  ∃ spelling : Spelling, spelling.token = token ∧ ∀ rest, spelling.Fits (' ' :: rest)

/-- A token that is written as it is in front of some characters is written so in front of a
space. -/
theorem Spelling.Fits.isSpelled {spelling : Spelling} {behind : List Char}
    (h : spelling.Fits behind) : spelling.token.IsSpelled := by
  refine ⟨spelling, rfl, fun rest => ?_⟩
  cases spelling with
  | word first others => exact ⟨h.1, h.2.1, stops_cons (by decide) rest⟩
  | numeral first others => exact ⟨h.1, stops_cons (by decide) rest⟩
  | symbol c => exact h

/-- A token other than the end of input is written somehow when it has been cut. -/
theorem Cursor.isSpelled_scan {σ : Type} [CharStream σ] {cursor : Cursor σ}
    (h : cursor.scan.lexeme.token ≠ .endOfInput) : cursor.scan.lexeme.token.IsSpelled := by
  obtain ⟨division, hvalid, hchars⟩ := Division.exists_valid cursor.chars
  have hstands : cursor.Stands division.chars cursor.place := ⟨hchars.symm, rfl⟩
  cases division with
  | ending gap => exact absurd (congrArg Lexeme.token (hstands.scan_end hvalid).1) h
  | next gap spelling rest =>
    obtain ⟨hgap, hfits, _⟩ := hvalid
    rw [(hstands.scan hgap hfits).1]
    exact hfits.isSpelled

/-- All tokens behind a cursor are written somehow. -/
theorem Feed.Leads.isSpelled {σ : Type} [CharStream σ] {cursor : Cursor σ} {lexemes : List Lexeme}
    {rest : Feed σ} (h : Leads (ofScan cursor.scan) lexemes rest) :
    ∀ lexeme ∈ lexemes, lexeme.token.IsSpelled := by
  induction lexemes generalizing cursor with
  | nil => exact List.forall_mem_nil _
  | cons lexeme lexemes ih =>
    obtain ⟨hlookahead, hne, hrest⟩ := h.cons_inv
    obtain rfl : cursor.scan.lexeme = lexeme := hlookahead
    exact List.forall_mem_cons.2 ⟨Cursor.isSpelled_scan hne, ih hrest⟩

/-- Tokens that are written somehow are those of a text. -/
theorem Token.exists_ofString {tokens : List Token} (h : ∀ token ∈ tokens, token.IsSpelled) :
    ∃ text : String, Token.ofString text = tokens := by
  have hchars : ∃ chars, Lexes chars tokens := by
    induction tokens with
    | nil => exact ⟨[], .nil⟩
    | cons token tokens ih =>
      obtain ⟨⟨spelling, rfl, hfits⟩, htokens⟩ := List.forall_mem_cons.1 h
      obtain ⟨chars, hlexes⟩ := ih htokens
      exact ⟨_, .of_fits (hfits chars) (Lexes.space hlexes).2⟩
  obtain ⟨chars, hlexes⟩ := hchars
  refine ⟨String.ofList chars, Lexes.ofString ?_⟩
  rw [String.toList_ofList]
  exact hlexes

end Kaleidoscope
