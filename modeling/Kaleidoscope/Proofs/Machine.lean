import Kaleidoscope.Token.Listing
import Kaleidoscope.Token.Feed

/-!
# Machines on given tokens

A run of a machine on a feed depends on the tokens alone. Here a machine runs on a list of tokens,
and a feed is related to the tokens that it delivers. The main statements say that a machine which
goes through given tokens goes through a feed that delivers them, that every run on a feed is of
this kind, and what is still delivered behind a run.
-/

namespace Kaleidoscope

namespace Machine

variable {S R : Type}

/-- What a machine comes to on some tokens: a state behind all of them, or the result with which it
stops in front of one of them. -/
def moves (machine : Machine S R) (state : S) : List Lexeme → Move S R
  | [] => .shift state
  | lexeme :: rest =>
    match machine.move state lexeme with
    | .shift next => machine.moves next rest
    | .stop result => .stop result

/-- The move on the first token decides whether the run goes on. -/
theorem moves_cons (machine : Machine S R) (state : S) (lexeme : Lexeme) (rest : List Lexeme) :
    machine.moves state (lexeme :: rest) =
      match machine.move state lexeme with
      | .shift next => machine.moves next rest
      | .stop result => .stop result := rfl

/-- A token that is used up leaves the rest of the run. -/
theorem moves_cons_of_shift {machine : Machine S R} {state next : S} {lexeme : Lexeme}
    (h : machine.move state lexeme = .shift next) (rest : List Lexeme) :
    machine.moves state (lexeme :: rest) = machine.moves next rest := by
  rw [moves_cons, h]

/-- A token in front of which the machine stops ends the run. -/
theorem moves_cons_of_stop {machine : Machine S R} {state : S} {result : R} {lexeme : Lexeme}
    (h : machine.move state lexeme = .stop result) (rest : List Lexeme) :
    machine.moves state (lexeme :: rest) = .stop result := by
  rw [moves_cons, h]

/-- A run behind a first token uses that token up. -/
theorem exists_of_moves_cons {machine : Machine S R} {state last : S} {lexeme : Lexeme}
    {rest : List Lexeme} (h : machine.moves state (lexeme :: rest) = .shift last) :
    ∃ next, machine.move state lexeme = .shift next ∧ machine.moves next rest = .shift last := by
  cases hmove : machine.move state lexeme with
  | shift next => exact ⟨next, rfl, (moves_cons_of_shift hmove rest).symm.trans h⟩
  | stop result =>
    rw [moves_cons_of_stop hmove] at h
    cases h

/-- Runs compose. -/
theorem moves_append_of_shift {machine : Machine S R} {state next : S} {front : List Lexeme}
    (h : machine.moves state front = .shift next) (back : List Lexeme) :
    machine.moves state (front ++ back) = machine.moves next back := by
  induction front generalizing state with
  | nil =>
    cases h
    rfl
  | cons lexeme front ih =>
    obtain ⟨middle, hmove, hrest⟩ := exists_of_moves_cons h
    rw [List.cons_append, moves_cons_of_shift hmove]
    exact ih hrest

/-- What has stopped does not go on. -/
theorem moves_append_of_stop {machine : Machine S R} {state : S} {result : R}
    {front : List Lexeme} (h : machine.moves state front = .stop result) (back : List Lexeme) :
    machine.moves state (front ++ back) = .stop result := by
  induction front generalizing state with
  | nil => cases h
  | cons lexeme front ih =>
    rw [List.cons_append]
    cases hmove : machine.move state lexeme with
    | shift middle =>
      rw [moves_cons_of_shift hmove] at h ⊢
      exact ih h
    | stop result' =>
      rw [moves_cons_of_stop hmove] at h ⊢
      exact h

/-- What holds of every token that a machine uses up holds of all tokens that it goes through. -/
theorem forall_of_moves {machine : Machine S R} {P : Lexeme → Prop}
    (hshift : ∀ {state next : S} {lexeme : Lexeme}, machine.move state lexeme = .shift next →
      P lexeme) {state next : S} {lexemes : List Lexeme}
    (h : machine.moves state lexemes = .shift next) : ∀ lexeme ∈ lexemes, P lexeme := by
  induction lexemes generalizing state with
  | nil => simp
  | cons lexeme lexemes ih =>
    obtain ⟨middle, hmove, hrest⟩ := exists_of_moves_cons h
    exact List.forall_mem_cons.2 ⟨hshift hmove, ih hrest⟩

/-- What every token that is used up keeps together with the tokens before it, all tokens that a
machine goes through keep. -/
theorem keeps_of_moves {machine : Machine S R} {P : S → List Token → Prop}
    (hshift : ∀ {state next : S} {tokens : List Token} {lexeme : Lexeme}, P state tokens →
      machine.move state lexeme = .shift next → P next (tokens ++ [lexeme.token]))
    {state next : S} {tokens : List Token} (h : P state tokens) {lexemes : List Lexeme}
    (hmoves : machine.moves state lexemes = .shift next) :
    P next (tokens ++ lexemes.map Lexeme.token) := by
  induction lexemes generalizing state tokens with
  | nil =>
    cases hmoves
    rw [List.map_nil, List.append_nil]
    exact h
  | cons lexeme lexemes ih =>
    obtain ⟨middle, hmove, hrest⟩ := exists_of_moves_cons hmoves
    have hall := ih (hshift h hmove) hrest
    rw [List.append_assoc, List.singleton_append] at hall
    exact hall

end Machine

namespace Feed

variable {σ : Type} [CharStream σ]

/-- Whether discarding the given tokens, none of which is the end of input, leads from a feed to
another one. -/
inductive Leads : Feed σ → List Lexeme → Feed σ → Prop where
  /-- No token leads nowhere else. -/
  | here (feed : Feed σ) : Leads feed [] feed
  /-- The lookahead is the first token on the way. -/
  | ahead {feed rest : Feed σ} {lexemes : List Lexeme}
    (hne : feed.lookahead.token ≠ .endOfInput) (h : Leads feed.advance lexemes rest) :
    Leads feed (feed.lookahead :: lexemes) rest

namespace Leads

/-- Ways compose. -/
theorem append {feed middle rest : Feed σ} {front back : List Lexeme}
    (h : Leads feed front middle) (hback : Leads middle back rest) :
    Leads feed (front ++ back) rest := by
  induction h with
  | here => exact hback
  | ahead hne _ ih => exact ahead hne (ih hback)

/-- A way can be cut anywhere. -/
theorem of_append {feed rest : Feed σ} {front back : List Lexeme}
    (h : Leads feed (front ++ back) rest) :
    ∃ middle, Leads feed front middle ∧ Leads middle back rest := by
  induction front generalizing feed with
  | nil => exact ⟨feed, here feed, h⟩
  | cons lexeme front ih =>
    cases h with
    | ahead hne h =>
      obtain ⟨middle, hfront, hback⟩ := ih h
      exact ⟨middle, ahead hne hfront, hback⟩

/-- The first token on a way is the lookahead. -/
theorem cons_inv {feed rest : Feed σ} {lexeme : Lexeme} {lexemes : List Lexeme}
    (h : Leads feed (lexeme :: lexemes) rest) :
    feed.lookahead = lexeme ∧ lexeme.token ≠ .endOfInput ∧ Leads feed.advance lexemes rest := by
  cases h with
  | ahead hne h => exact ⟨rfl, hne, h⟩

/-- A way does not lead away from the end, and every token on it comes nearer. -/
theorem size_add_length_le {feed rest : Feed σ} {lexemes : List Lexeme}
    (h : Leads feed lexemes rest) : rest.size + lexemes.length ≤ feed.size := by
  induction h with
  | here => exact Nat.le_refl _
  | ahead hne _ ih =>
    have hlt := size_advance_lt hne
    rw [List.length_cons]
    omega

/-- What lies on a way to the end of input, behind the tokens on a shorter way. -/
theorem exists_back {feed middle rest : Feed σ} {front lexemes : List Lexeme}
    (hfront : Leads feed front middle) (h : Leads feed lexemes rest)
    (hend : rest.lookahead.token = .endOfInput) :
    ∃ back, lexemes = front ++ back ∧ Leads middle back rest := by
  induction hfront generalizing lexemes with
  | here => exact ⟨lexemes, rfl, h⟩
  | ahead hne _ ih =>
    cases h with
    | here => exact absurd hend hne
    | ahead _ h =>
      obtain ⟨back, rfl, hback⟩ := ih h
      exact ⟨back, rfl, hback⟩

end Leads

/-- The tokens from a cursor on lead to the end of input. -/
theorem exists_leads_lexemes (cursor : Cursor σ) :
    ∃ rest, Leads (ofScan cursor.scan) (cursor.lexemes []) rest ∧
      rest.lookahead.token = .endOfInput := by
  generalize hdone : ([] : List Lexeme) = done
  have hall : ∃ lexemes rest, cursor.lexemes done = done.reverse ++ lexemes ∧
      Leads (ofScan cursor.scan) lexemes rest ∧ rest.lookahead.token = .endOfInput := by
    clear hdone
    fun_induction Cursor.lexemes done cursor with
    | case1 done cursor scan h =>
      exact ⟨[], ofScan scan, (List.append_nil _).symm, .here _, (Token.isEnd_iff _).1 h⟩
    | case2 done cursor scan h ih =>
      obtain ⟨lexemes, rest, hlexemes, hleads, hend⟩ := ih
      refine ⟨scan.lexeme :: lexemes, rest, ?_, .ahead ?_ hleads, hend⟩
      · rw [hlexemes, List.reverse_cons, List.append_assoc, List.singleton_append]
      · exact fun htoken => h ((Token.isEnd_iff _).2 htoken)
  obtain ⟨lexemes, rest, hlexemes, hleads, hend⟩ := hall
  subst hdone
  rw [hlexemes]
  exact ⟨rest, hleads, hend⟩

/-- The tokens of a text lead to its end. -/
theorem exists_leads_ofString (text : String) :
    ∃ rest, Leads (start (Text.ofString text)) (Lexeme.ofString text) rest ∧
      rest.lookahead.token = .endOfInput :=
  exists_leads_lexemes (Cursor.start (Text.ofString text))

/-- A machine that goes through the tokens on a way goes on where the way leads to. -/
theorem drive_of_leads {S R : Type} {machine : Machine S R} {feed rest : Feed σ}
    {lexemes : List Lexeme} (h : Leads feed lexemes rest) {state next : S}
    (hmoves : machine.moves state lexemes = .shift next) :
    feed.drive machine state = rest.drive machine next := by
  induction h generalizing state with
  | here =>
    cases hmoves
    rfl
  | ahead _ _ ih =>
    obtain ⟨middle, hmove, hrest⟩ := Machine.exists_of_moves_cons hmoves
    rw [drive_of_shift hmove]
    exact ih hrest

/-- The first move decides how a run goes on. -/
theorem drive_congr {S R : Type} {machine : Machine S R} {state state' : S} {feed : Feed σ}
    (h : machine.move state feed.lookahead = machine.move state' feed.lookahead) :
    feed.drive machine state = feed.drive machine state' := by
  cases hmove : machine.move state' feed.lookahead with
  | shift next => rw [drive_of_shift (h.trans hmove), drive_of_shift hmove]
  | stop result => rw [drive_of_stop (h.trans hmove), drive_of_stop hmove]

/-- A machine that stops on the way stops so in the feed. -/
theorem result_drive_of_leads_of_stop {S R : Type} {machine : Machine S R} {feed rest : Feed σ}
    {lexemes : List Lexeme} (h : Leads feed lexemes rest) {state : S} {result : R}
    (hmoves : machine.moves state lexemes = .stop result) :
    (feed.drive machine state).result = result := by
  induction h generalizing state with
  | here => cases hmoves
  | @ahead feed rest lexemes hne _ ih =>
    cases hmove : machine.move state feed.lookahead with
    | shift middle =>
      rw [Machine.moves_cons_of_shift hmove] at hmoves
      rw [drive_of_shift hmove]
      exact ih hmoves
    | stop result' =>
      rw [Machine.moves_cons_of_stop hmove] at hmoves
      cases hmoves
      rw [drive_of_stop hmove]

/-- Every run goes through the tokens on a way, and stops on the token behind them. -/
theorem exists_leads_drive {S R : Type} (machine : Machine S R) (state : S) (feed : Feed σ) :
    ∃ lexemes next, Leads feed lexemes (feed.drive machine state).feed ∧
      machine.moves state lexemes = .shift next ∧
      machine.move next (feed.drive machine state).feed.lookahead =
        .stop (feed.drive machine state).result := by
  fun_induction drive machine state feed with
  | case1 state feed next h ih =>
    obtain ⟨lexemes, last, hleads, hmoves, hstop⟩ := ih
    refine ⟨feed.lookahead :: lexemes, last, .ahead (machine.token_of_shift h) hleads, ?_, hstop⟩
    rw [Machine.moves_cons_of_shift h]
    exact hmoves
  | case2 state feed result h => exact ⟨[], state, .here feed, rfl, h⟩

/-- Whether some tokens are all that a feed delivers before the end of input. -/
def Delivers (feed : Feed σ) (tokens : List Token) : Prop :=
  ∃ lexemes rest, Leads feed lexemes rest ∧ rest.lookahead.token = .endOfInput ∧
    lexemes.map Lexeme.token = tokens

/-- The feed of a text delivers the tokens of the text. -/
theorem delivers_ofString (text : String) :
    (start (Text.ofString text)).Delivers (Token.ofString text) := by
  obtain ⟨rest, hleads, hend⟩ := exists_leads_ofString text
  exact ⟨Lexeme.ofString text, rest, hleads, hend, rfl⟩

namespace Delivers

variable {feed : Feed σ}

/-- Where nothing is delivered the input ends. -/
theorem lookahead_nil (h : feed.Delivers []) : feed.lookahead.token = .endOfInput := by
  obtain ⟨lexemes, rest, hleads, hend, htokens⟩ := h
  obtain rfl := List.map_eq_nil_iff.1 htokens
  cases hleads
  exact hend

/-- The lookahead is the first token that is delivered. -/
theorem lookahead_cons {token : Token} {tokens : List Token} (h : feed.Delivers (token :: tokens)) :
    feed.lookahead.token = token := by
  obtain ⟨lexemes, rest, hleads, _, htokens⟩ := h
  obtain ⟨lexeme, others, rfl, rfl, _⟩ := List.map_eq_cons_iff.1 htokens
  rw [hleads.cons_inv.1]

/-- The lookahead is the first token that is delivered, or the end of input. -/
theorem lookahead {tokens : List Token} (h : feed.Delivers tokens) :
    feed.lookahead.token = tokens.headD .endOfInput := by
  cases tokens with
  | nil => exact h.lookahead_nil
  | cons token tokens => exact h.lookahead_cons

/-- A lookahead other than the end of input is delivered. -/
theorem exists_cons {tokens : List Token} (h : feed.Delivers tokens) {token : Token}
    (htoken : feed.lookahead.token = token) (hne : token ≠ .endOfInput) :
    ∃ rest, tokens = token :: rest := by
  cases tokens with
  | nil => exact absurd (htoken.symm.trans h.lookahead_nil) hne
  | cons first rest => exact ⟨rest, by rw [← htoken, h.lookahead_cons]⟩

/-- The first token is not delivered again. -/
theorem advance {token : Token} {tokens : List Token} (h : feed.Delivers (token :: tokens)) :
    feed.advance.Delivers tokens := by
  obtain ⟨lexemes, rest, hleads, hend, htokens⟩ := h
  obtain ⟨lexeme, others, rfl, _, hothers⟩ := List.map_eq_cons_iff.1 htokens
  exact ⟨others, rest, hleads.cons_inv.2.2, hend, hothers⟩

/-- The first tokens lead to a feed that delivers the others. -/
theorem exists_leads {front back : List Token} (h : feed.Delivers (front ++ back)) :
    ∃ lexemes middle, Leads feed lexemes middle ∧ lexemes.map Lexeme.token = front ∧
      middle.Delivers back := by
  obtain ⟨lexemes, rest, hleads, hend, htokens⟩ := h
  obtain ⟨first, second, rfl, hfirst, hsecond⟩ := List.map_eq_append_iff.1 htokens
  obtain ⟨middle, hfront, hback⟩ := hleads.of_append
  exact ⟨first, middle, hfront, hfirst, second, rest, hback, hend, hsecond⟩

/-- What is delivered is what lies on a way, and what is delivered where it leads to. -/
theorem of_leads {tokens : List Token} (h : feed.Delivers tokens) {lexemes : List Lexeme}
    {middle : Feed σ} (hleads : Leads feed lexemes middle) :
    ∃ back, tokens = lexemes.map Lexeme.token ++ back ∧ middle.Delivers back := by
  obtain ⟨all, rest, hall, hend, rfl⟩ := h
  obtain ⟨back, rfl, hback⟩ := hleads.exists_back hall hend
  exact ⟨back.map Lexeme.token, List.map_append, back, rest, hback, hend, rfl⟩

/-- Where the input ends nothing is delivered. -/
theorem eq_nil {tokens : List Token} (h : feed.Delivers tokens)
    (hend : feed.lookahead.token = .endOfInput) : tokens = [] := by
  obtain ⟨lexemes, rest, hleads, _, rfl⟩ := h
  cases hleads with
  | here => rfl
  | ahead hne => exact absurd hend hne

/-- A feed delivers one sequence of tokens only. -/
theorem unique {tokens tokens' : List Token} (h : feed.Delivers tokens)
    (h' : feed.Delivers tokens') : tokens = tokens' := by
  obtain ⟨lexemes, rest, hleads, hend, rfl⟩ := h'
  obtain ⟨back, rfl, hback⟩ := h.of_leads hleads
  rw [hback.eq_nil hend, List.append_nil]

/-- Behind a run the last of the tokens are delivered. -/
theorem drive {S R : Type} {tokens : List Token} (h : feed.Delivers tokens)
    (machine : Machine S R) (state : S) :
    ∃ back, (feed.drive machine state).feed.Delivers back ∧ back <:+ tokens := by
  obtain ⟨lexemes, _, hleads, _, _⟩ := exists_leads_drive machine state feed
  obtain ⟨back, rfl, hback⟩ := h.of_leads hleads
  exact ⟨back, hback, List.suffix_append _ _⟩

end Delivers

end Feed

end Kaleidoscope
