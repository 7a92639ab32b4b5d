import Kaleidoscope.Proofs.Joining
import Kaleidoscope.Proofs.Runs

/-!
# Semicolons keep texts apart

A semicolon on a line of its own ends whatever form is open above it, be that well formed or not,
and a form below it begins afresh. The main statement says that a run over two texts with such a
semicolon between them gives what the runs over the two give, one after the other. For the upper
text the semicolon is in the place of the end of input, and the lower text is so many lines further
down; nothing else changes.
-/

namespace Kaleidoscope

/-- What becomes of the forms of a text under a configuration. -/
def Form.outcomesUnder (config : Config) (text : String) : List (Except SyntaxError Form) :=
  ((Feed.start (Text.ofString text)).run config).outcomes

namespace Relabeling

/-- What a semicolon on the line below a text changes in the text: it takes the place of the end of
input. -/
def closedBelow (chars : List Char) : Relabeling where
  position place :=
    if place = Position.first.past chars then ⟨chars.count '\n' + 2, 1⟩ else place
  ending := .character ';'

/-- What lines above a text change in it: everything is further down. -/
def lowered (lines : Nat) : Relabeling := ⟨Position.down lines, .endOfInput⟩

/-- A token some lines further down is the same token. -/
theorem lexeme_lowered (lines : Nat) (lexeme : Lexeme) :
    (lowered lines).lexeme lexeme = ⟨lexeme.token, lexeme.position.down lines⟩ := by
  obtain ⟨token, position⟩ := lexeme
  cases token <;> rfl

/-- The semicolon below a text is behind the line feed at the end of the text. -/
theorem lexeme_closedBelow_end (chars : List Char) :
    (closedBelow chars).lexeme ⟨.endOfInput, Position.first.past chars⟩ =
      ⟨.character ';', (Position.first.past chars).past ['\n']⟩ := by
  have hplace : (Position.first.past chars).past ['\n'] = ⟨chars.count '\n' + 2, 1⟩ := by
    rw [← Position.past_append, Position.past_concat_lineFeed]
    simp only [Position.first, Position.mk.injEq, and_true]
    omega
  rw [hplace]
  exact congrArg (Lexeme.mk (.character ';')) (if_pos rfl)

end Relabeling

/-- The line of a semicolon and the line feed behind it lead to the first column again. -/
theorem Position.past_separator (chars : List Char) :
    ((first.past chars).past (['\n'] ++ [';'])).past ['\n'] =
      first.down (chars.count '\n' + 2) := by
  have hcount : (chars ++ (['\n'] ++ [';'])).count '\n' = chars.count '\n' + 1 :=
    List.count_append
  rw [← past_append first chars, ← past_append, past_concat_lineFeed, hcount]
  simp only [first, down, Position.mk.injEq, and_true]
  omega

namespace Division

/-- Two divided texts with a semicolon on a line of its own between them. -/
def separated (upper lower : Division) : Division :=
  upper.append (next ['\n'] (.symbol ';') (lower.behindGap ['\n']))

variable {upper lower : Division}

/-- The characters of the two texts and those between them. -/
theorem chars_separated (upper lower : Division) :
    (upper.separated lower).chars = upper.chars ++ (['\n', ';', '\n'] ++ lower.chars) := by
  rw [separated, chars_append, chars, chars_behindGap]
  rfl

/-- Nothing at the end of the upper text goes on with a line feed, and a line feed is a gap, so the
texts are divided as they are. -/
theorem Valid.separated (hupper : upper.Valid) (hlower : lower.Valid) :
    (upper.separated lower).Valid := by
  have hblank : Unicode.isWhiteSpace '\n' = true := by decide
  have hblanks : ∀ c ∈ ['\n'], Unicode.isWhiteSpace c = true := by
    intro c hc
    rw [List.mem_singleton.1 hc]
    exact hblank
  have hsymbol : isSymbol ';' = true := by decide
  have hmiddle : (next ['\n'] (.symbol ';') (lower.behindGap ['\n'])).Valid :=
    ⟨.blank hblank (.nil _), hsymbol, hlower.behindBlanks hblanks⟩
  refine hupper.append hmiddle (stops_cons ?_ _) (stops_cons ?_ _) (stops_cons ?_ _)
  · decide
  · decide
  · decide

/-- The tokens of the upper text come before its end, so a semicolon takes the place of the end of
input and of nothing else. -/
theorem map_tape_closedBelow (division : Division) :
    (division.tape Position.first).map (Relabeling.closedBelow division.chars).lexeme =
      division.lexemes Position.first ++
        [⟨.character ';', (Position.first.past division.chars).past ['\n']⟩] := by
  have hlexeme : ∀ lexeme ∈ division.lexemes Position.first,
      (Relabeling.closedBelow division.chars).lexeme lexeme = lexeme := by
    intro lexeme hmem
    obtain ⟨hne, hbefore⟩ := before_of_mem_lexemes hmem
    have htoken : (Relabeling.closedBelow division.chars).token lexeme.token = lexeme.token :=
      Relabeling.token_of_ne hne
    have hposition : (Relabeling.closedBelow division.chars).position lexeme.position =
        lexeme.position := if_neg hbefore.ne
    rw [Relabeling.lexeme, htoken, hposition]
  rw [tape, List.map_append, List.map_congr_left hlexeme, List.map_id', List.map_singleton,
    Relabeling.lexeme_closedBelow_end]

/-- The tokens of the upper text, then the semicolon in the place of its end, then the tokens of the
lower text further down. -/
theorem tape_separated (upper lower : Division) :
    (upper.separated lower).tape Position.first =
      (upper.tape Position.first).map (Relabeling.closedBelow upper.chars).lexeme ++
        (lower.tape Position.first).map
          (Relabeling.lowered (upper.chars.count '\n' + 2)).lexeme := by
  have hlower : (lower.behindGap ['\n']).tape
      ((Position.first.past upper.chars).past (['\n'] ++ [';'])) =
        (lower.tape Position.first).map
          (Relabeling.lowered (upper.chars.count '\n' + 2)).lexeme := by
    rw [tape_behindGap, Position.past_separator, tape_down]
    exact List.map_congr_left fun lexeme _ => (Relabeling.lexeme_lowered _ lexeme).symm
  rw [separated, tape_append, tape_next, map_tape_closedBelow, List.append_assoc, ← hlower]
  rfl

end Division

namespace Feed

variable {σ τ : Type} [CharStream σ] [CharStream τ] {config : Config} {φ ψ : Relabeling}

/-- A semicolon may take the place of the end of input. Then a run goes on behind it, whether it is
passed over or discarded on account of an error. -/
theorem goesOn_of_separator (hφ : φ.ending = .character ';') (hψ : ψ.ending = .endOfInput)
    (other : Feed τ) :
    GoesOn σ config φ (other.tape.map ψ.lexeme) ((other.run config).outcomes.map ψ.result) := by
  intro feed ending hend htape hsettled summary done
  obtain ⟨parts, hparts⟩ := exists_accounts config other
  have htoken : (φ.lexeme ending).token = .character ';' := by
    simp only [Relabeling.lexeme, Relabeling.token, hend, hφ]
  have hlookahead : feed.lookahead.token = .character ';' := by
    rw [lookahead_of_tape htape]
    exact htoken
  have hrest : feed.advance.tape = other.tape.map ψ.lexeme ++ [] := by
    rw [List.append_nil]
    refine tape_advance htape ?_
    rw [htoken]
    exact Token.noConfusion
  have hrun := outcomes_runFrom (.inl hψ) (goesOn_of_end hψ) hparts hrest (settled_advance feed)
    summary done
  rw [List.append_nil] at hrun
  rw [runFrom_of_separator hlookahead, hparts.outcomes_eq]
  exact ⟨hrun, hrun⟩

end Feed

namespace Form

/-- A run over two texts with a semicolon on a line of its own between them gives the outcomes of
the upper text, in which an error at the end of input is one at the semicolon, and then the outcomes
of the lower text, in which places are so many lines further down. The texts may be any texts. -/
theorem outcomesUnder_separated (config : Config)
    (hseparator : config.operators.precedence? ';' = none) (upper lower : String) :
    outcomesUnder config (upper ++ "\n;\n" ++ lower) =
      (outcomesUnder config upper).map (Relabeling.closedBelow upper.toList).result ++
        (outcomesUnder config lower).map
          (Relabeling.lowered (upper.toList.count '\n' + 2)).result := by
  have hsource : ∀ text : String, CharStream.chars (Text.ofString text) = text.toList :=
    fun text => CharStream.chars_text (Text.ofString text)
  obtain ⟨above, habove, haboveChars⟩ := Division.exists_valid upper.toList
  obtain ⟨below, hbelow, hbelowChars⟩ := Division.exists_valid lower.toList
  have hchars : (above.separated below).chars =
      CharStream.chars (Text.ofString (upper ++ "\n;\n" ++ lower)) := by
    rw [Division.chars_separated, haboveChars, hbelowChars, hsource, String.toList_append,
      String.toList_append, List.append_assoc]
    rfl
  have htape := Feed.tape_start (habove.separated hbelow) hchars
  rw [Division.tape_separated, haboveChars,
    ← Feed.tape_start habove (haboveChars.trans (hsource upper).symm),
    ← Feed.tape_start hbelow (hbelowChars.trans (hsource lower).symm)] at htape
  exact Feed.outcomes_run_relabel (.inr ⟨rfl, hseparator⟩) (Feed.goesOn_of_separator rfl rfl _)
    htape (Feed.settled_start _)

/-- A definition that breaks off does not reach the form below the semicolon. -/
theorem outcomesUnder_separated_of_open_definition :
    Config.standard.operators.precedence? ';' = none ∧
      outcomesUnder .standard ("def f(" ++ "\n;\n" ++ "42") =
        (outcomesUnder .standard "def f(").map
            (Relabeling.closedBelow "def f(".toList).result ++
          (outcomesUnder .standard "42").map
            (Relabeling.lowered ("def f(".toList.count '\n' + 2)).result := by
  have hseparator : Config.standard.operators.precedence? ';' = none := by decide
  exact ⟨hseparator, outcomesUnder_separated .standard hseparator "def f(" "42"⟩

example : (outcomesUnder .standard "def f(\n;\n42").map Run.isForm = [false, true] := by
  decide +kernel

end Form

end Kaleidoscope
