import Kaleidoscope.Proofs.Accounting

/-!
# What runs depend on

A run gives what its account says. Since the account goes by the tokens alone, so does the run: on
tokens in other places it gives the same forms and errors, and the errors name the tokens in their
places. The main statements are that every run ends at the end of input and gives the outcomes of
its account, and that runs on the same tokens give the same outcomes.
-/

namespace Kaleidoscope

namespace Feed

variable {σ τ : Type} [CharStream σ] [CharStream τ] {config : Config} {φ : Relabeling}

/-- One form decides how a run goes on: there may be none, it is kept, or the token on which it
fails is discarded. -/
theorem runFrom_eq (feed : Feed σ) (summary : Summary) (done : List (Except SyntaxError Form)) :
    feed.runFrom config summary done =
      match feed.readForm config with
      | ⟨none, after⟩ => ⟨done.reverse, summary, after⟩
      | ⟨some (.ok form), after⟩ =>
        (after.report (.parsed form.kind)).runFrom config summary.addForm (.ok form :: done)
      | ⟨some (.error error), after⟩ =>
        (after.report (.rejected error)).advance.runFrom config summary.addFailure
          (.error error :: done) := by
  rw [runFrom]
  generalize feed.readForm config = read
  obtain ⟨result, after⟩ := read
  split
  · next hresult => cases hresult; rfl
  · next hresult => cases hresult; rfl
  · next hresult => cases hresult; rfl

/-- A semicolon between forms is passed over. -/
theorem runFrom_of_separator {feed : Feed σ} (h : feed.lookahead.token = .character ';')
    (summary : Summary) (done : List (Except SyntaxError Form)) :
    feed.runFrom config summary done = feed.advance.runFrom config summary done := by
  rw [runFrom_eq, readForm_of_separator h, ← runFrom_eq]

/-- A report does not change the tokens. -/
theorem tape_report (feed : Feed σ) (event : Event) : (feed.report event).tape = feed.tape :=
  (alike_report feed event).tape_eq

/-- Whether a feed whose lookahead is the end of input delivers it again. -/
def Settled (feed : Feed σ) : Prop :=
  feed.lookahead.token = .endOfInput → feed.advance.lookahead.token = .endOfInput

/-- A feed whose lookahead has been cut from its cursor delivers the end of input again. -/
theorem settled_ofScan (cursor : Cursor σ) : (ofScan cursor.scan).Settled := by
  intro h
  have hscan : (ofScan cursor.scan).advance.lookahead = (ofScan cursor.scan).lookahead :=
    Cursor.scan_cursor_scan h
  rw [hscan]
  exact h

/-- A feed in the beginning delivers the end of input again. -/
theorem settled_start (source : σ) : (start source).Settled := settled_ofScan _

/-- A feed whose first token has been discarded delivers the end of input again. -/
theorem settled_advance (feed : Feed σ) : feed.advance.Settled := settled_ofScan _

/-- A report does not change whether the end of input is delivered again. -/
theorem Settled.report {feed : Feed σ} (h : feed.Settled) (event : Event) :
    (feed.report event).Settled := by
  intro hend
  rw [(alike_report feed event).advance.lookahead_eq]
  exact h hend

/-- A feed behind a run of a machine delivers the end of input again. -/
theorem Settled.drive {S R : Type} {feed : Feed σ} (h : feed.Settled) (machine : Machine S R)
    (state : S) : (feed.drive machine state).feed.Settled := by
  fun_induction Feed.drive machine state feed with
  | case1 state feed next hmove ih => exact ih (settled_advance feed)
  | case2 => exact h

/-- On tokens in the places of others a form is read as on those. -/
theorem readForm_relabel (hadmits : φ.Admits config) {feed : Feed σ} {other after : Feed τ}
    {tail : List Lexeme} {result : Except SyntaxError Form}
    (hne : other.lookahead.token ≠ .character ';')
    (hread : other.readForm config = ⟨some result, after⟩)
    (htape : feed.tape = other.tape.map φ.lexeme ++ tail) (hsettled : feed.Settled) :
    ∃ behind : Feed σ, feed.readForm config = ⟨some (φ.result result), behind⟩ ∧
      behind.tape = after.tape.map φ.lexeme ++ tail ∧ behind.Settled := by
  have hend := ne_end_of_readForm hread
  have htoken : feed.lookahead.token = other.lookahead.token := by
    rw [lookahead_relabel htape]
    exact Relabeling.token_of_ne hend
  rw [readForm_of_ne hne] at hread
  obtain ⟨hresult, hbehind⟩ := readFormHere_relabel hadmits htape hend
  have hsettled' : (feed.readFormHere config).feed.Settled := by
    rw [readFormHere_eq_drive (by rw [htoken]; exact hend)]
    exact hsettled.drive _ _
  rw [hread] at hresult hbehind
  refine ⟨(feed.readFormHere config).feed, ?_, hbehind, hsettled'⟩
  rw [readForm_of_ne (by rw [htoken]; exact hne)]
  exact congrArg (Outcome.mk · (feed.readFormHere config).feed) hresult

/-- Whether a run that comes to what is in the place of the end of input has some outcomes still to
give, be that token discarded on account of an error or not. -/
def GoesOn (σ : Type) [CharStream σ] (config : Config) (φ : Relabeling) (tail : List Lexeme)
    (outcomes : List (Except SyntaxError Form)) : Prop :=
  ∀ (feed : Feed σ) (ending : Lexeme), ending.token = .endOfInput →
    feed.tape = φ.lexeme ending :: tail → feed.Settled → ∀ summary done,
      (feed.runFrom config summary done).outcomes = done.reverse ++ outcomes ∧
        (feed.advance.runFrom config summary done).outcomes = done.reverse ++ outcomes

/-- At the end of input a run has nothing more to give. -/
theorem outcomes_runFrom_of_end {feed : Feed σ} (h : feed.lookahead.token = .endOfInput)
    (summary : Summary) (done : List (Except SyntaxError Form)) :
    (feed.runFrom config summary done).outcomes = done.reverse := by
  rw [runFrom_eq, readForm_of_end h]

/-- A run has nothing more to give where the end of input stays what it is. -/
theorem goesOn_of_end (hending : φ.ending = .endOfInput) : GoesOn σ config φ [] [] := by
  intro feed ending hend htape hsettled summary done
  have htoken : feed.lookahead.token = .endOfInput := by
    rw [lookahead_of_tape htape]
    simp only [Relabeling.lexeme, Relabeling.token, hend, hending]
  rw [List.append_nil]
  exact ⟨outcomes_runFrom_of_end htoken summary done,
    outcomes_runFrom_of_end (hsettled htoken) summary done⟩

/-- A run on tokens in the places of others gives what the account of those says, and goes on behind
what is in the place of the end of input. -/
theorem outcomes_runFrom (hadmits : φ.Admits config) {tail : List Lexeme}
    {outcomes : List (Except SyntaxError Form)} (hgoes : GoesOn σ config φ tail outcomes)
    {other : Feed τ} {parts : List Part} (h : Accounts config other parts) {feed : Feed σ}
    (htape : feed.tape = other.tape.map φ.lexeme ++ tail) (hsettled : feed.Settled)
    (summary : Summary) (done : List (Except SyntaxError Form)) :
    (feed.runFrom config summary done).outcomes =
      done.reverse ++ ((parts.filterMap Part.outcome?).map φ.result ++ outcomes) := by
  induction h generalizing feed summary done with
  | @ending other h =>
    rw [tape_of_end h] at htape
    exact (hgoes feed _ h htape hsettled summary done).1
  | @separator other parts h _ ih =>
    have hne : other.lookahead.token ≠ .endOfInput := by rw [h]; exact Token.noConfusion
    have htoken : feed.lookahead.token = .character ';' := by
      rw [lookahead_relabel htape, ← h]
      exact Relabeling.token_of_ne hne
    rw [runFrom_of_separator htoken]
    exact ih (tape_advance_relabel htape hne) (settled_advance feed) summary done
  | @form other after used form parts h hread _ _ ih =>
    obtain ⟨behind, hbehind, htape', hsettled'⟩ :=
      readForm_relabel hadmits h hread htape hsettled
    have hrest := ih ((tape_report behind (.parsed form.kind)).trans htape')
      (hsettled'.report _) summary.addForm (.ok form :: done)
    rw [runFrom_eq, hbehind]
    refine hrest.trans ?_
    rw [List.reverse_cons, List.append_assoc]
    rfl
  | @failure other after used error parts h hread _ hne _ ih =>
    obtain ⟨behind, hbehind, htape', hsettled'⟩ :=
      readForm_relabel hadmits h hread htape hsettled
    have hreport := (tape_report behind (.rejected (φ.error error))).trans htape'
    have hrest := ih (tape_advance_relabel hreport hne) (settled_advance _) summary.addFailure
      (.error (φ.error error) :: done)
    rw [runFrom_eq, hbehind]
    refine hrest.trans ?_
    rw [List.reverse_cons, List.append_assoc]
    rfl
  | @failureAtEnd other after used error h hread _ hend =>
    obtain ⟨behind, hbehind, htape', hsettled'⟩ :=
      readForm_relabel hadmits h hread htape hsettled
    rw [tape_of_end hend] at htape'
    have hreport := (tape_report behind (.rejected (φ.error error))).trans htape'
    have hrest := (hgoes _ _ hend hreport (hsettled'.report _) summary.addFailure
      (.error (φ.error error) :: done)).2
    rw [runFrom_eq, hbehind]
    refine hrest.trans ?_
    rw [List.reverse_cons, List.append_assoc]
    rfl

/-- A run gives the outcomes of its account. -/
theorem Accounts.outcomes_eq {feed : Feed σ} {parts : List Part}
    (h : Accounts config feed parts) :
    (feed.run config).outcomes = parts.filterMap Part.outcome? := by
  by_cases hend : feed.lookahead.token = .endOfInput
  · rw [run, outcomes_runFrom_of_end hend]
    cases h with
    | ending => rfl
    | separator hseparator =>
      rw [hseparator] at hend
      cases hend
    | form _ hread => exact absurd hend (ne_end_of_readForm hread)
    | failure _ hread => exact absurd hend (ne_end_of_readForm hread)
    | failureAtEnd _ hread => exact absurd hend (ne_end_of_readForm hread)
  · have htape : feed.tape = feed.tape.map Relabeling.identity.lexeme ++ [] := by
      rw [Relabeling.identity_lexeme, List.map_id, List.append_nil]
    have hrun := outcomes_runFrom (.inl rfl) (goesOn_of_end rfl) h htape
      (fun htoken => absurd htoken hend) .nothing []
    rw [run, hrun, Relabeling.identity_result, List.map_id, List.append_nil]
    rfl

/-- A run on tokens in the places of others gives the outcomes that those give, with the errors in
the places of their errors, and goes on behind what is in the place of the end of input. -/
theorem outcomes_run_relabel (hadmits : φ.Admits config) {tail : List Lexeme}
    {outcomes : List (Except SyntaxError Form)} (hgoes : GoesOn σ config φ tail outcomes)
    {feed : Feed σ} {other : Feed τ} (htape : feed.tape = other.tape.map φ.lexeme ++ tail)
    (hsettled : feed.Settled) :
    (feed.run config).outcomes = (other.run config).outcomes.map φ.result ++ outcomes := by
  obtain ⟨parts, hparts⟩ := exists_accounts config other
  rw [hparts.outcomes_eq, run, outcomes_runFrom hadmits hgoes hparts htape hsettled .nothing []]
  rfl

/-- A run on tokens in the places of others gives the outcomes that those give, with the errors in
the places of their errors. -/
theorem outcomes_run_relabel_of_end (hending : φ.ending = .endOfInput) {feed : Feed σ}
    {other : Feed τ} (htape : feed.tape = other.tape.map φ.lexeme) (hsettled : feed.Settled) :
    (feed.run config).outcomes = (other.run config).outcomes.map φ.result := by
  rw [← List.append_nil (other.tape.map φ.lexeme)] at htape
  rw [outcomes_run_relabel (.inl hending) (goesOn_of_end hending) htape hsettled,
    List.append_nil]

/-- Runs on the same tokens give the same outcomes. -/
theorem outcomes_run_congr {feed : Feed σ} {other : Feed τ} (htape : feed.tape = other.tape)
    (hsettled : feed.Settled) : (feed.run config).outcomes = (other.run config).outcomes := by
  have hmap : feed.tape = other.tape.map Relabeling.identity.lexeme := by
    rw [htape, Relabeling.identity_lexeme, List.map_id]
  rw [outcomes_run_relabel_of_end rfl hmap hsettled, Relabeling.identity_result, List.map_id]

end Feed

end Kaleidoscope
