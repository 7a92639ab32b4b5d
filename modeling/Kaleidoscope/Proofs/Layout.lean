import Kaleidoscope.Proofs.Separation

/-!
# Layout

White space and comments between two lines are layout: the lines have the same tokens whatever it
is, and so they have when a comment is put at the end of one. Readers look at the places of tokens
only to report them. The main statement says that a text is cut into tokens where layout is, and
that layout changes nothing about what becomes of the forms of a text but the places of errors.
-/

namespace Kaleidoscope

/-- Whether some characters are white space and comments, each of which ends with a line of them. -/
inductive IsLayout : List Char → Prop where
  /-- No character is layout. -/
  | nil : IsLayout []
  /-- White space may be in front of layout. -/
  | blank {c : Char} {rest : List Char} (hc : Unicode.isWhiteSpace c = true) (h : IsLayout rest) :
    IsLayout (c :: rest)
  /-- A comment, with the character that ends its line, may be in front of layout. -/
  | comment {body rest : List Char} {last : Char} (hbody : ∀ c ∈ body, Cursor.isComment c = true)
    (hlast : last = '\n' ∨ last = '\r') (h : IsLayout rest) :
    IsLayout ('#' :: (body ++ last :: rest))

/-- Whether some characters are layout that begins with the end of a line. -/
structure IsLineBreak (chars : List Char) : Prop where
  /-- A line ends in front. -/
  head_eq : chars.head? = some '\n' ∨ chars.head? = some '\r'
  /-- The characters are layout. -/
  isLayout : IsLayout chars

/-- The end of a line is white space. -/
theorem isWhiteSpace_of_endsLine {c : Char} (h : c = '\n' ∨ c = '\r') :
    Unicode.isWhiteSpace c = true := by
  rcases h with rfl | rfl <;> decide

/-- A character that ends a line does not belong to a comment. -/
theorem isComment_of_endsLine {c : Char} (h : c = '\n' ∨ c = '\r') :
    Cursor.isComment c = false := by
  rcases h with rfl | rfl <;> decide

/-- Layout in front of a gap belongs to it. -/
theorem IsLayout.isGap_append {layout : List Char} (h : IsLayout layout) {gap behind : List Char}
    (hgap : IsGap gap behind) : IsGap (layout ++ gap) behind := by
  induction h with
  | nil => exact hgap
  | blank hc _ ih => exact .blank hc ih
  | @comment body rest last hbody hlast _ ih =>
    rw [List.cons_append, List.append_assoc, List.cons_append]
    exact .comment hbody (stops_cons (isComment_of_endsLine hlast) _)
      (.blank (isWhiteSpace_of_endsLine hlast) ih)

/-- What goes on neither with a line feed nor with a carriage return does not go on with
a line break. -/
theorem IsLineBreak.stops {lineBreak : List Char} (h : IsLineBreak lineBreak)
    {isMember : Char → Bool} (hlineFeed : isMember '\n' = false) (hreturn : isMember '\r' = false)
    (rest : List Char) : Stops isMember (lineBreak ++ rest) := by
  intro c hc
  rw [List.head?_append] at hc
  rcases h.head_eq with hhead | hhead
  · rw [hhead] at hc
    cases hc
    exact hlineFeed
  · rw [hhead] at hc
    cases hc
    exact hreturn

namespace IsGap

variable {gap behind : List Char}

/-- What goes on behind some characters behind a gap does not matter. -/
theorem extend_of_ne_nil (h : IsGap gap behind) (hne : behind ≠ []) (tail : List Char) :
    IsGap gap (behind ++ tail) := by
  induction h with
  | nil => exact nil _
  | blank hc _ ih => exact blank hc (ih hne)
  | @comment body gap behind hbody hstops _ ih =>
    refine comment hbody ?_ (ih hne)
    rw [← List.append_assoc]
    cases hall : gap ++ behind with
    | nil => exact absurd (List.append_eq_nil_iff.1 hall).2 hne
    | cons c rest => exact stops_cons (hstops c (by rw [hall]; rfl)) _

/-- A comment at the end of a gap belongs to the gap, and to a comment there that has not ended. -/
theorem append_comment {comment : List Char} (h : IsGap gap [])
    (hcomment : ∀ c ∈ comment, Cursor.isComment c = true) : IsGap (gap ++ '#' :: comment) [] := by
  generalize hnil : ([] : List Char) = behind at h
  induction h with
  | nil =>
    subst hnil
    have hbody := IsGap.comment hcomment (stops_nil _) (.nil [])
    rw [List.append_nil] at hbody
    exact hbody
  | blank hc _ ih => exact blank hc (ih hnil)
  | @comment body gap _ hbody hstops hgap ih =>
    subst hnil
    rw [List.cons_append, List.append_assoc]
    -- With nothing behind it the comment has not ended, and the new one is a part of it.
    cases gap with
    | nil =>
      rw [List.nil_append, ← List.append_nil (body ++ '#' :: comment)]
      refine .comment (fun c hc => ?_) (stops_nil _) (.nil [])
      rcases List.mem_append.1 hc with hc | hc
      · exact hbody c hc
      · rcases List.mem_cons.1 hc with rfl | hc
        · decide
        · exact hcomment c hc
    | cons c rest => exact .comment hbody (stops_cons (hstops c rfl) _) (ih rfl)

end IsGap

namespace Division

variable {division : Division}

/-- A text may be divided behind layout. -/
theorem Valid.behindLayout {layout : List Char} (hlayout : IsLayout layout) (h : division.Valid) :
    (division.behindGap layout).Valid := by
  cases division with
  | ending gap => exact hlayout.isGap_append h
  | next gap spelling rest => exact ⟨hlayout.isGap_append h.1, h.2⟩

/-- What is in front of the first token does not change the tokens. -/
theorem tokens_behindGap (front : List Char) (division : Division) :
    (division.behindGap front).tokens = division.tokens := by
  cases division <;> rfl

/-- The tokens of the second text follow those of the first one. -/
theorem tokens_append (division other : Division) :
    (division.append other).tokens = division.tokens ++ other.tokens := by
  induction division with
  | ending gap => exact tokens_behindGap gap other
  | next gap spelling rest ih => rw [append, tokens, ih, tokens, List.cons_append]

/-- A divided text with a comment at the end. -/
def commented (comment : List Char) : Division → Division
  | ending gap => ending (gap ++ '#' :: comment)
  | next gap spelling rest => next gap spelling (rest.commented comment)

/-- The characters of a divided text with a comment are those of the text and those of the
comment. -/
theorem chars_commented (comment : List Char) (division : Division) :
    (division.commented comment).chars = division.chars ++ '#' :: comment := by
  induction division with
  | ending gap => rfl
  | next gap spelling rest ih => rw [commented, chars, ih, chars, List.append_assoc,
      List.append_assoc]

/-- A comment behind a divided text does not change the tokens. -/
theorem tokens_commented (comment : List Char) (division : Division) :
    (division.commented comment).tokens = division.tokens := by
  induction division with
  | ending gap => rfl
  | next gap spelling rest ih => rw [commented, tokens, ih, tokens]

/-- A text with a comment at its end may be divided as the text is. -/
theorem Valid.commented {comment : List Char} (h : division.Valid)
    (hcomment : ∀ c ∈ comment, Cursor.isComment c = true) :
    (division.commented comment).Valid := by
  induction division with
  | ending gap => exact IsGap.append_comment h hcomment
  | next gap spelling rest ih =>
    obtain ⟨hgap, hfits, hrest⟩ := h
    refine ⟨?_, ?_, ih hrest⟩
    · rw [chars_commented, ← List.append_assoc]
      exact hgap.extend_of_ne_nil (List.append_ne_nil_of_left_ne_nil spelling.chars_ne_nil _) _
    · rw [chars_commented]
      exact hfits.extend (stops_cons (by decide) _) (stops_cons (by decide) _)

/-- Two divided texts are divided as they are with a line break between them, whatever the first one
ends with. -/
theorem Valid.append_lineBreak {lower : Division} {lineBreak : List Char} (h : division.Valid)
    (hlower : lower.Valid) (hbreak : IsLineBreak lineBreak) :
    (division.append (lower.behindGap lineBreak)).Valid := by
  have hstops : ∀ {isMember : Char → Bool}, isMember '\n' = false → isMember '\r' = false →
      Stops isMember (lower.behindGap lineBreak).chars := by
    intro isMember hlineFeed hreturn
    rw [chars_behindGap]
    exact hbreak.stops hlineFeed hreturn lower.chars
  exact h.append (hlower.behindLayout hbreak.isLayout) (hstops (by decide) (by decide))
    (hstops (by decide) (by decide)) (hstops (by decide) (by decide))

end Division

namespace Token

/-- The tokens of a text are those of the text divided. -/
theorem ofString_eq {division : Division} (hvalid : division.Valid) {text : String}
    (hchars : division.chars = text.toList) : ofString text = division.tokens := by
  rw [ofString, Lexeme.ofString_eq hvalid hchars, Division.map_token_lexemes]

/-- With a line break between them two texts have their tokens one behind the other. -/
theorem ofString_append_lineBreak {lineBreak : String} (h : IsLineBreak lineBreak.toList)
    (upper lower : String) :
    ofString (upper ++ lineBreak ++ lower) = ofString upper ++ ofString lower := by
  obtain ⟨above, habove, haboveChars⟩ := Division.exists_valid upper.toList
  obtain ⟨below, hbelow, hbelowChars⟩ := Division.exists_valid lower.toList
  have hchars : (above.append (below.behindGap lineBreak.toList)).chars =
      (upper ++ lineBreak ++ lower).toList := by
    rw [Division.chars_append, Division.chars_behindGap, haboveChars, hbelowChars,
      String.toList_append, String.toList_append, List.append_assoc]
  rw [ofString_eq (habove.append_lineBreak hbelow h) hchars, ofString_eq habove haboveChars,
    ofString_eq hbelow hbelowChars, Division.tokens_append, Division.tokens_behindGap]

/-- A comment at the end of a text does not change its tokens. -/
theorem ofString_append_comment {comment : String}
    (h : ∀ c ∈ comment.toList, Cursor.isComment c = true) (text : String) :
    ofString (text ++ "#" ++ comment) = ofString text := by
  obtain ⟨division, hvalid, hchars⟩ := Division.exists_valid text.toList
  have hcommented : (division.commented comment.toList).chars =
      (text ++ "#" ++ comment).toList := by
    rw [Division.chars_commented, hchars, String.toList_append, String.toList_append,
      List.append_assoc]
    rfl
  rw [ofString_eq (hvalid.commented h) hcommented, ofString_eq hvalid hchars,
    Division.tokens_commented]

end Token

namespace Relabeling

/-- The relabeling that forgets all places. -/
def erased : Relabeling := ⟨fun _ => Position.first, .endOfInput⟩

/-- Tokens that are only moved stay what they are. -/
theorem token_of_ending {φ : Relabeling} (hending : φ.ending = .endOfInput) (token : Token) :
    φ.token token = token := by
  cases token with
  | endOfInput => exact hending
  | _ => rfl

/-- Where a token has been does not matter when its place is forgotten. -/
theorem erased_result {φ : Relabeling} (hending : φ.ending = .endOfInput) {α : Type}
    (result : Except SyntaxError α) : erased.result (φ.result result) = erased.result result := by
  have hlexeme : ∀ found : Lexeme, erased.lexeme (φ.lexeme found) = erased.lexeme found := by
    intro found
    rw [lexeme, lexeme, lexeme, token_of_ending hending]
    rfl
  cases result with
  | ok value => rfl
  | error error =>
    cases error with
    | unexpectedToken found =>
      exact congrArg Except.error (congrArg SyntaxError.unexpectedToken (hlexeme found))
    | expected expectation found =>
      exact congrArg Except.error (congrArg (SyntaxError.expected expectation) (hlexeme found))
    | nestingTooDeep limit position => rfl

/-- Tokens that are the same in other places have been moved there, if no two of them have been in
one. -/
theorem exists_map_lexeme {lexemes others : List Lexeme}
    (htokens : lexemes.map Lexeme.token = others.map Lexeme.token)
    (hplaces : lexemes.Pairwise fun lexeme other => lexeme.position ≠ other.position) :
    ∃ φ : Relabeling, φ.ending = .endOfInput ∧ lexemes.map φ.lexeme = others := by
  induction lexemes generalizing others with
  | nil => exact ⟨identity, rfl, (List.map_eq_nil_iff.1 htokens.symm).symm⟩
  | cons lexeme lexemes ih =>
    cases others with
    | nil => cases htokens
    | cons other others =>
      obtain ⟨htoken, hrest⟩ := List.cons.inj htokens
      obtain ⟨hne, hplaces⟩ := List.pairwise_cons.1 hplaces
      obtain ⟨φ, hending, hmap⟩ := ih hrest hplaces
      -- No other token is at the place of the first one, so that place can be moved by itself.
      let ψ : Relabeling := ⟨Function.update φ.position lexeme.position other.position, φ.ending⟩
      have hmoves : ψ.ending = .endOfInput := hending
      have hhead : ψ.lexeme lexeme = other := by
        have hposition : ψ.position lexeme.position = other.position :=
          Function.update_self _ _ _
        rw [Relabeling.lexeme, token_of_ending hmoves, hposition, htoken]
      have htail : ∀ later ∈ lexemes, ψ.lexeme later = φ.lexeme later := by
        intro later hmem
        have hposition : ψ.position later.position = φ.position later.position :=
          Function.update_of_ne (hne later hmem).symm _ _
        rw [Relabeling.lexeme, Relabeling.lexeme, token_of_ending hmoves,
          token_of_ending hending, hposition]
      refine ⟨ψ, hending, ?_⟩
      rw [List.map_cons, hhead, List.map_congr_left htail, hmap]

end Relabeling

namespace Form

/-- What becomes of the forms of a text under a configuration, wherever they are in the text. -/
def placelessOutcomes (config : Config) (text : String) : List (Except SyntaxError Form) :=
  (outcomesUnder config text).map Relabeling.erased.result

/-- A run over a text reads the tokens of the text divided. -/
theorem exists_division (text : String) :
    ∃ division : Division, Token.ofString text = division.tokens ∧
      (Feed.start (Text.ofString text)).tape = division.tape Position.first := by
  obtain ⟨division, hvalid, hchars⟩ := Division.exists_valid text.toList
  exact ⟨division, Token.ofString_eq hvalid hchars,
    Feed.tape_start hvalid (hchars.trans (CharStream.chars_text (Text.ofString text)).symm)⟩

/-- What becomes of a text when its places are forgotten depends on its tokens only. -/
theorem placelessOutcomes_congr {text other : String}
    (h : Token.ofString text = Token.ofString other) (config : Config) :
    placelessOutcomes config text = placelessOutcomes config other := by
  obtain ⟨division, htokens, htape⟩ := exists_division text
  obtain ⟨division', htokens', htape'⟩ := exists_division other
  have hmap : (division'.tape Position.first).map Lexeme.token =
      (division.tape Position.first).map Lexeme.token := by
    rw [Division.tape, Division.tape, List.map_append, List.map_append,
      Division.map_token_lexemes, Division.map_token_lexemes, ← htokens, ← htokens', h]
    rfl
  have hplaces : (division'.tape Position.first).Pairwise fun lexeme later =>
      lexeme.position ≠ later.position :=
    (division'.pairwise_tape Position.first).imp Position.Before.ne
  obtain ⟨φ, hending, hmoved⟩ := Relabeling.exists_map_lexeme hmap hplaces
  rw [← htape, ← htape'] at hmoved
  have houtcomes : outcomesUnder config text = (outcomesUnder config other).map φ.result :=
    Feed.outcomes_run_relabel_of_end hending hmoved.symm (Feed.settled_start _)
  rw [placelessOutcomes, houtcomes, List.map_map, placelessOutcomes]
  exact List.map_congr_left fun result _ => Relabeling.erased_result hending result

/-- Layout that begins with the end of a line cuts a text, whatever is in front of it: the tokens of
the whole are those of the part above and those of the part below. A comment at the end of a text
adds no token. So, under every configuration, what becomes of the forms of a text depends neither on
which layout is between two parts, nor on whether there is any above or below the text, nor on
comments at the end of a line; errors may be at other places, and that is all. -/
theorem placelessOutcomes_layout {lineBreak : String} (h : IsLineBreak lineBreak.toList)
    (upper lower : String) :
    Token.ofString (upper ++ lineBreak ++ lower) =
        Token.ofString upper ++ Token.ofString lower ∧
      (∀ comment : String, (∀ c ∈ comment.toList, Cursor.isComment c = true) →
        Token.ofString (upper ++ "#" ++ comment) = Token.ofString upper) ∧
      ∀ config : Config,
        (∀ other : String, IsLineBreak other.toList →
          placelessOutcomes config (upper ++ lineBreak ++ lower) =
            placelessOutcomes config (upper ++ other ++ lower)) ∧
        placelessOutcomes config (lineBreak ++ lower) = placelessOutcomes config lower ∧
        placelessOutcomes config (upper ++ lineBreak) = placelessOutcomes config upper ∧
        ∀ comment : String, (∀ c ∈ comment.toList, Cursor.isComment c = true) →
          placelessOutcomes config (upper ++ "#" ++ comment) = placelessOutcomes config upper ∧
          placelessOutcomes config (upper ++ "#" ++ comment ++ lineBreak ++ lower) =
            placelessOutcomes config (upper ++ lineBreak ++ lower) := by
  have hcut := fun upper lower => Token.ofString_append_lineBreak h upper lower
  have hgap : (Division.ending []).Valid := IsGap.nil []
  have hempty : Token.ofString "" = (Division.ending []).tokens := Token.ofString_eq hgap rfl
  refine ⟨hcut upper lower, fun comment hcomment => Token.ofString_append_comment hcomment upper,
    fun config => ⟨fun other hother => ?_, ?_, ?_, fun comment hcomment => ⟨?_, ?_⟩⟩⟩
  · have hcut' := Token.ofString_append_lineBreak hother upper lower
    exact placelessOutcomes_congr ((hcut upper lower).trans hcut'.symm) config
  · have hbelow := hcut "" lower
    rw [String.empty_append, hempty] at hbelow
    exact placelessOutcomes_congr hbelow config
  · have habove := hcut upper ""
    rw [String.append_empty, hempty] at habove
    exact placelessOutcomes_congr (habove.trans (List.append_nil _)) config
  · exact placelessOutcomes_congr (Token.ofString_append_comment hcomment upper) config
  · refine placelessOutcomes_congr ?_ config
    rw [hcut, hcut, Token.ofString_append_comment hcomment]

/-- The end of a line, and a line with a comment. -/
theorem isLineBreak_of_comment : IsLineBreak "\r # (\n".toList := by
  have hbody : ∀ c ∈ [' ', '('], Cursor.isComment c = true := List.all_eq_true.1 (by decide)
  have hcomment : IsLayout ('#' :: ([' ', '('] ++ ['\n'])) := .comment hbody (.inl rfl) .nil
  exact ⟨.inr rfl, .blank (by decide) (.blank (by decide) hcomment)⟩

/-- A call that breaks off inside a comment goes on below another one. -/
theorem placelessOutcomes_layout_of_open_call :
    IsLineBreak "\r # (\n".toList ∧ IsLineBreak "\n".toList ∧
      Token.ofString ("f(1,#" ++ "\r # (\n" ++ "2)") =
        Token.ofString "f(1,#" ++ Token.ofString "2)" ∧
      placelessOutcomes .standard ("f(1,#" ++ "\r # (\n" ++ "2)") =
        placelessOutcomes .standard ("f(1,#" ++ "\n" ++ "2)") := by
  have hlineFeed : IsLineBreak "\n".toList := ⟨.inl rfl, .blank (by decide) .nil⟩
  obtain ⟨htokens, _, houtcomes⟩ :=
    placelessOutcomes_layout isLineBreak_of_comment "f(1,#" "2)"
  exact ⟨isLineBreak_of_comment, hlineFeed, htokens, (houtcomes .standard).1 "\n" hlineFeed⟩

end Form

end Kaleidoscope
