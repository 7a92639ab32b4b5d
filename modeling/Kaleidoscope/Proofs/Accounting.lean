import Kaleidoscope.Session
import Kaleidoscope.Proofs.Relabeling

/-!
# What a run makes of every token

A run passes over semicolons between forms, uses tokens up for the forms that it reads, and where a
form fails it uses up what belongs to the form and discards the token behind that. Here is an
account of it that does not refer to the run as a whole: one part after another, each with the
tokens that it takes. The main statements say that every run has such an account, that the parts
take every token once and in order, and what the tokens of a part can be.
-/

namespace Kaleidoscope

/-- What happens to the next tokens. -/
inductive Part where
  /-- A semicolon between forms is passed over. -/
  | separator (lexeme : Lexeme)
  /-- Tokens are used up for a form. -/
  | form (used : List Lexeme) (form : Form)
  /-- Tokens are used up for a form that fails, and the token on which it fails is discarded,
  unless it is the end of input. -/
  | failure (used : List Lexeme) (error : SyntaxError) (offending? : Option Lexeme)

namespace Part

/-- The tokens that a part takes. -/
def lexemes : Part → List Lexeme
  | separator lexeme => [lexeme]
  | form used _ => used
  | failure used _ offending? => used ++ offending?.toList

/-- What becomes of a form, if the part is one. -/
def outcome? : Part → Option (Except SyntaxError Form)
  | separator _ => none
  | form _ content => some (.ok content)
  | failure _ error _ => some (.error error)

/-- Whether a part begins as it must: a semicolon is passed over, and a form begins with another
token. -/
def Begins : Part → Prop
  | separator lexeme => lexeme.token = .character ';'
  | part => ∃ first others, part.lexemes = first :: others ∧ first.token ≠ .character ';'

end Part

namespace Feed

variable {σ τ : Type} [CharStream σ] [CharStream τ] {config : Config} {φ : Relabeling}

/-- An account of the tokens of a feed, part by part: what is passed over, and what the reading of
each form uses up. -/
inductive Accounts (config : Config) : Feed σ → List Part → Prop where
  /-- At the end of input there is nothing to account for. -/
  | ending {feed : Feed σ} (h : feed.lookahead.token = .endOfInput) : Accounts config feed []
  /-- A semicolon is passed over. -/
  | separator {feed : Feed σ} {parts : List Part} (h : feed.lookahead.token = .character ';')
    (hrest : Accounts config feed.advance parts) :
    Accounts config feed (.separator feed.lookahead :: parts)
  /-- A form is read. -/
  | form {feed after : Feed σ} {used : List Lexeme} {form : Form} {parts : List Part}
    (h : feed.lookahead.token ≠ .character ';')
    (hread : feed.readForm config = ⟨some (.ok form), after⟩) (hleads : Leads feed used after)
    (hrest : Accounts config after parts) : Accounts config feed (.form used form :: parts)
  /-- A form fails on a token, and that is discarded. -/
  | failure {feed after : Feed σ} {used : List Lexeme} {error : SyntaxError} {parts : List Part}
    (h : feed.lookahead.token ≠ .character ';')
    (hread : feed.readForm config = ⟨some (.error error), after⟩)
    (hleads : Leads feed used after) (hne : after.lookahead.token ≠ .endOfInput)
    (hrest : Accounts config after.advance parts) :
    Accounts config feed (.failure used error (some after.lookahead) :: parts)
  /-- A form fails on the end of input. -/
  | failureAtEnd {feed after : Feed σ} {used : List Lexeme} {error : SyntaxError}
    (h : feed.lookahead.token ≠ .character ';')
    (hread : feed.readForm config = ⟨some (.error error), after⟩)
    (hleads : Leads feed used after) (hend : after.lookahead.token = .endOfInput) :
    Accounts config feed [.failure used error none]

variable {feed : Feed σ}

/-- Where a form is read or fails the input does not end. -/
theorem ne_end_of_readForm {result : Except SyntaxError Form} {after : Feed σ}
    (hread : feed.readForm config = ⟨some result, after⟩) :
    feed.lookahead.token ≠ .endOfInput := by
  intro hend
  rw [readForm_of_end hend] at hread
  cases hread

/-- A form that is read or fails uses up the tokens on some way, none of which is a semicolon that
is no operator. -/
theorem exists_leads_readForm (config : Config) (h : feed.lookahead.token ≠ .character ';')
    (hne : feed.lookahead.token ≠ .endOfInput) :
    ∃ result after used, feed.readForm config = ⟨some result, after⟩ ∧ Leads feed used after ∧
      (config.operators.precedence? ';' = none →
        ∀ lexeme ∈ used, lexeme.token ≠ .character ';') := by
  obtain ⟨used, next, hleads, hmoves, _⟩ :=
    exists_leads_drive (FormReader.machine config) .start feed
  refine ⟨_, _, used, (readForm_of_ne h).trans (readFormHere_eq_drive hne), hleads, ?_⟩
  intro hseparator
  exact Machine.forall_of_moves (fun hmove => FormReader.ne_separator_of_shift hseparator hmove)
    hmoves

/-- A way that leads elsewhere begins with the lookahead. -/
theorem Leads.exists_cons {after : Feed σ} {used : List Lexeme} (h : Leads feed used after)
    (hne : feed ≠ after) : ∃ others, used = feed.lookahead :: others := by
  cases h with
  | here => exact absurd rfl hne
  | ahead => exact ⟨_, rfl⟩

/-- The way on which a form is read begins with the lookahead. -/
theorem exists_cons_of_form {form : Form} {after : Feed σ} {used : List Lexeme}
    (hread : feed.readForm config = ⟨some (.ok form), after⟩) (hleads : Leads feed used after) :
    ∃ others, used = feed.lookahead :: others := by
  have hresult : (feed.readForm config).result = some (.ok form) := by rw [hread]
  have hlt := size_readForm_lt hresult
  apply hleads.exists_cons
  rintro rfl
  rw [hread] at hlt
  exact Nat.lt_irrefl _ hlt

/-- Every feed has an account. -/
theorem exists_accounts (config : Config) (feed : Feed σ) :
    ∃ parts, Accounts config feed parts := by
  induction hsize : feed.size using Nat.strong_induction_on generalizing feed with
  | _ size ih =>
    subst hsize
    by_cases hend : feed.lookahead.token = .endOfInput
    · exact ⟨[], .ending hend⟩
    · by_cases hseparator : feed.lookahead.token = .character ';'
      · obtain ⟨parts, hparts⟩ := ih _ (size_advance_lt hend) feed.advance rfl
        exact ⟨_, .separator hseparator hparts⟩
      · obtain ⟨result, after, used, hread, hleads, _⟩ :=
          exists_leads_readForm config hseparator hend
        cases result with
        | ok form =>
          have hresult : (feed.readForm config).result = some (.ok form) := by rw [hread]
          have hlt := size_readForm_lt hresult
          rw [hread] at hlt
          obtain ⟨parts, hparts⟩ := ih _ hlt after rfl
          exact ⟨_, .form hseparator hread hleads hparts⟩
        | error error =>
          by_cases hafter : after.lookahead.token = .endOfInput
          · exact ⟨_, .failureAtEnd hseparator hread hleads hafter⟩
          · have hle := hleads.size_add_length_le
            have hlt := size_advance_lt hafter
            obtain ⟨parts, hparts⟩ := ih _ (by omega) after.advance rfl
            exact ⟨_, .failure hseparator hread hleads hafter hparts⟩

namespace Accounts

variable {parts : List Part}

/-- The parts take every token once and in order, up to the end of input. -/
theorem lexemes_eq (h : Accounts config feed parts) :
    feed.lexemes = parts.flatMap Part.lexemes := by
  induction h with
  | ending h => exact lexemes_of_end h
  | @separator feed parts h _ ih =>
    have hne : feed.lookahead.token ≠ .endOfInput := by rw [h]; exact Token.noConfusion
    rw [lexemes_of_ne hne, ih, List.flatMap_cons]
    rfl
  | form _ _ hleads _ ih =>
    rw [hleads.lexemes_eq, ih, List.flatMap_cons]
    rfl
  | @failure feed after used error parts _ _ hleads hne _ ih =>
    rw [(hleads.append (.ahead hne (.here _))).lexemes_eq, ih, List.flatMap_cons]
    rfl
  | failureAtEnd _ _ hleads hafter =>
    rw [hleads.lexemes_eq, lexemes_of_end hafter]
    simp only [List.flatMap_cons, List.flatMap_nil, Part.lexemes, Option.toList_none,
      List.append_nil]

end Accounts

end Feed

end Kaleidoscope
