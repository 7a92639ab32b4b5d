import Kaleidoscope.Proofs.Accounting

/-!
# What the reading of a form depends on

The reading of a form passes over semicolons, uses up the tokens of the form, and looks at the one
behind them. The main statement says that nothing else decides what becomes of the form: where the
same tokens come, behind any number of semicolons, and the same one behind them, the outcome is the
same, the places in it included.
-/

namespace Kaleidoscope

variable {config : Config}

namespace Feed

variable {σ τ : Type} [CharStream σ] [CharStream τ]

/-- Ways with the same tokens, and the same one behind them, begin with the same token. -/
theorem Leads.lookahead_eq {feed rest : Feed σ} {other after : Feed τ} {lexemes : List Lexeme}
    (h : Leads feed lexemes rest) (h' : Leads other lexemes after)
    (hlookahead : after.lookahead = rest.lookahead) : other.lookahead = feed.lookahead := by
  cases h with
  | here =>
    cases h'
    exact hlookahead
  | ahead hne h =>
    exact h'.cons_inv.1

/-- Any number of semicolons is passed over. -/
theorem readForm_of_separators {feed rest : Feed σ} {separators : List Lexeme}
    (h : Leads feed separators rest)
    (hseparators : ∀ lexeme ∈ separators, lexeme.token = .character ';') :
    feed.readForm config = rest.readForm config := by
  induction h with
  | here => rfl
  | ahead hne h ih =>
    rw [List.forall_mem_cons] at hseparators
    rw [readForm_of_separator hseparators.1, ih hseparators.2]

/-- A feed begins with some semicolons. -/
theorem exists_separators (feed : Feed σ) :
    ∃ separators, (∀ lexeme ∈ separators, lexeme.token = .character ';') ∧
      Leads feed separators feed.skipSeparators ∧
      feed.skipSeparators.lookahead.token ≠ .character ';' := by
  obtain ⟨separators, state, hleads, hmoves, hstop⟩ :=
    exists_leads_drive Separators.machine () feed
  refine ⟨separators, Machine.forall_of_moves ?_ hmoves, hleads, fun htoken => ?_⟩
  · intro state next lexeme hmove
    change Separators.move state lexeme = _ at hmove
    unfold Separators.move at hmove
    split at hmove
    · assumption
    · cases hmove
  · change Separators.move state feed.skipSeparators.lookahead = _ at hstop
    rw [Separators.move, htoken] at hstop
    cases hstop

/-- The reading of a form uses up some tokens. -/
theorem exists_used (config : Config) {feed : Feed σ}
    (hne : feed.lookahead.token ≠ .character ';') :
    ∃ used, Leads feed used (feed.readForm config).feed := by
  by_cases hend : feed.lookahead.token = .endOfInput
  · rw [readForm_of_end hend]
    exact ⟨[], .here feed⟩
  · obtain ⟨_, _, used, hread, hleads, _⟩ := exists_leads_readForm config hne hend
    rw [hread]
    exact ⟨used, hleads⟩

/-- What becomes of a form depends on the tokens used up for it and on the one behind them, and on
nothing else. -/
theorem readForm_of_leads {feed : Feed σ} (hne : feed.lookahead.token ≠ .character ';')
    {used : List Lexeme} (hleads : Leads feed used (feed.readForm config).feed)
    {other after : Feed τ} (hother : Leads other used after)
    (hlookahead : after.lookahead = (feed.readForm config).feed.lookahead) :
    other.readForm config = ⟨(feed.readForm config).result, after⟩ := by
  have hfirst : other.lookahead = feed.lookahead := hleads.lookahead_eq hother hlookahead
  by_cases hend : feed.lookahead.token = .endOfInput
  · have hend' : other.lookahead.token = .endOfInput := by rw [hfirst, hend]
    rw [readForm_of_end hend] at hleads ⊢
    obtain rfl : used = [] := hleads.unique (.here feed)
    cases hother
    exact readForm_of_end hend'
  · rw [readForm_of_ne hne, readFormHere_eq_drive hend] at hleads hlookahead ⊢
    rw [readForm_of_ne (by rw [hfirst]; exact hne),
      readFormHere_eq_drive (by rw [hfirst]; exact hend)]
    obtain ⟨used', state, hleads', hmoves, hstop⟩ :=
      exists_leads_drive (FormReader.machine config) .start feed
    obtain rfl := hleads.unique hleads'
    rw [drive_of_leads hother hmoves]
    rw [← hlookahead] at hstop
    rw [drive_of_stop hstop]

end Feed

end Kaleidoscope
