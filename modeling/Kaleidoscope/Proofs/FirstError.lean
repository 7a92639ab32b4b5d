import Kaleidoscope.Proofs.Grammar.Program
import Kaleidoscope.Proofs.Separation

/-!
# Stopping at the first error

Reading a text strictly stops where a run would discard a token and go on. Up to there the two do
the same. The main statement says that what is read strictly can be told from the outcomes of a run:
all forms if there is no error among them, and otherwise the first error, the forms before it having
been read for nothing.
-/

namespace Kaleidoscope

namespace Feed

variable {σ : Type} [CharStream σ] {config : Config}

/-- Whether some forms are read one after the other, and lead from a feed to another one. -/
inductive ReadsForms (config : Config) : Feed σ → List Form → Feed σ → Prop where
  /-- No form leads nowhere else. -/
  | here (feed : Feed σ) : ReadsForms config feed [] feed
  /-- A form is read, and others behind it. -/
  | form {feed after rest : Feed σ} {form : Form} {forms : List Form}
    (hread : feed.readForm config = ⟨some (.ok form), after⟩)
    (h : ReadsForms config after forms rest) : ReadsForms config feed (form :: forms) rest

/-- Forms that have been read are kept in front of those that follow. -/
theorem ReadsForms.readForms_eq {feed rest : Feed σ} {forms : List Form}
    (h : ReadsForms config feed forms rest) (done : List Form) :
    feed.readForms config done = rest.readForms config (forms.reverse ++ done) := by
  induction h generalizing done with
  | here => rfl
  | @form feed after rest form forms hread _ ih =>
    rw [Feed.readForms_eq, hread]
    dsimp only
    rw [ih, List.reverse_cons, List.append_assoc]
    rfl

/-- Whether the strict reading of a feed goes as some outcomes say: they are forms, which are read,
or there is a first error among them, and the forms before it are read and lead to where it
arises. -/
inductive Agrees (config : Config) (feed : Feed σ) (outcomes : List (Except SyntaxError Form)) :
    Prop where
  /-- There are forms only. -/
  | forms (forms : List Form) (houtcomes : outcomes = forms.map .ok)
    (hread : ∀ done, feed.readForms config done = .ok (done.reverse ++ forms))
  /-- There is a first error. -/
  | error (forms : List Form) (error : SyntaxError) (rest : List (Except SyntaxError Form))
    (failing : Feed σ) (houtcomes : outcomes = forms.map .ok ++ .error error :: rest)
    (hforms : ReadsForms config feed forms failing)
    (herror : (failing.readForm config).result = some (.error error))

/-- Where a form fails the strict reading ends with the error. -/
theorem readForms_of_error {feed : Feed σ} {error : SyntaxError}
    (h : (feed.readForm config).result = some (.error error)) (done : List Form) :
    feed.readForms config done = .error error := by
  rw [readForms_eq, h]

/-- A semicolon in front of a feed changes nothing. -/
theorem Agrees.of_separator {feed : Feed σ} {outcomes : List (Except SyntaxError Form)}
    (hseparator : feed.lookahead.token = .character ';')
    (h : Agrees config feed.advance outcomes) : Agrees config feed outcomes := by
  have hread : feed.readForm config = feed.advance.readForm config :=
    readForm_of_separator hseparator
  cases h with
  | forms forms houtcomes hforms =>
    refine .forms forms houtcomes fun done => ?_
    rw [readForms_of_separator hseparator, hforms]
  | error forms error rest failing houtcomes hforms herror =>
    cases hforms with
    | here => exact .error [] error rest feed houtcomes (.here feed) (by rw [hread, herror])
    | form hform hforms =>
      exact .error _ error rest failing houtcomes (.form (hread.trans hform) hforms) herror

/-- The strict reading of a feed goes as its account says. -/
theorem Accounts.agrees {feed : Feed σ} {parts : List Part} (h : Accounts config feed parts) :
    Agrees config feed (parts.filterMap Part.outcome?) := by
  induction h with
  | @ending feed h =>
    refine .forms [] rfl fun done => ?_
    rw [readForms_eq, readForm_of_end h, List.append_nil]
  | separator h _ ih => exact ih.of_separator h
  | @form feed after used form parts _ hread _ _ ih =>
    cases ih with
    | forms forms houtcomes hforms =>
      refine .forms (form :: forms) (congrArg (List.cons (Except.ok form)) houtcomes) fun done => ?_
      rw [readForms_eq, hread]
      dsimp only
      rw [hforms, List.reverse_cons, List.append_assoc]
      rfl
    | error forms error rest failing houtcomes hforms herror =>
      exact .error (form :: forms) error rest failing
        (congrArg (List.cons (Except.ok form)) houtcomes) (.form hread hforms) herror
  | failure _ hread _ _ _ _ => exact .error [] _ _ _ rfl (.here _) (by rw [hread])
  | failureAtEnd _ hread _ _ => exact .error [] _ _ _ rfl (.here _) (by rw [hread])

/-- The strict reading of a feed goes as the outcomes of a run say. -/
theorem agrees_run (config : Config) (feed : Feed σ) :
    Agrees config feed (feed.run config).outcomes := by
  obtain ⟨parts, hparts⟩ := exists_accounts config feed
  rw [hparts.outcomes_eq]
  exact hparts.agrees

/-- Forms that are read strictly are all outcomes of a run. -/
theorem outcomes_of_readForms {feed : Feed σ} {forms : List Form}
    (h : feed.readForms config [] = .ok forms) : (feed.run config).outcomes = forms.map .ok := by
  cases agrees_run config feed with
  | forms forms' houtcomes hread =>
    obtain rfl : forms' = forms := Except.ok.inj ((hread []).symm.trans h)
    exact houtcomes
  | error forms' error rest failing houtcomes hforms herror =>
    rw [hforms.readForms_eq, readForms_of_error herror] at h
    cases h

/-- An error that ends the strict reading is one of the outcomes of a run. -/
theorem mem_outcomes_of_readForms {feed : Feed σ} {error : SyntaxError}
    (h : feed.readForms config [] = .error error) : .error error ∈ (feed.run config).outcomes := by
  cases agrees_run config feed with
  | forms forms houtcomes hread =>
    rw [hread] at h
    cases h
  | error forms first rest failing houtcomes hforms herror =>
    rw [hforms.readForms_eq, readForms_of_error herror] at h
    cases h
    rw [houtcomes]
    exact List.mem_append_right _ List.mem_cons_self

end Feed

/-- Some outcomes have one first error only, and the forms before it. -/
theorem Run.first_error_inj {forms forms' : List Form} {error error' : SyntaxError}
    {rest rest' : List (Except SyntaxError Form)}
    (h : forms.map Except.ok ++ .error error :: rest =
      forms'.map Except.ok ++ .error error' :: rest') : forms = forms' ∧ error = error' := by
  induction forms generalizing forms' with
  | nil =>
    cases forms' with
    | nil =>
      cases h
      exact ⟨rfl, rfl⟩
    | cons => cases h
  | cons form forms ih =>
    cases forms' with
    | nil => cases h
    | cons form' forms' =>
      obtain ⟨hform, hrest⟩ := List.cons.inj h
      cases hform
      obtain ⟨rfl, rfl⟩ := ih hrest
      exact ⟨rfl, rfl⟩

/-- Outcomes with an error among them are not forms only. -/
theorem Run.map_ok_ne_error {forms forms' : List Form} {error : SyntaxError}
    {rest : List (Except SyntaxError Form)} :
    forms.map Except.ok ≠ forms'.map Except.ok ++ .error error :: rest := by
  intro h
  have hmem : Except.error error ∈ forms.map Except.ok := by
    rw [h]
    exact List.mem_append_right _ List.mem_cons_self
  obtain ⟨form, _, hform⟩ := List.mem_map.1 hmem
  cases hform

/-- A text is read strictly as some forms if and only if these are the outcomes of a run over it,
and with an error if and only if this is the first error among the outcomes. Then the forms before
it are those that have been read, in order, when it arises. -/
theorem Form.ofString_iff_outcomes (text : String) :
    (∀ forms, ofString text = .ok forms ↔ outcomesUnder .standard text = forms.map .ok) ∧
      (∀ error, ofString text = .error error ↔
        ∃ (forms : List Form) (rest : List (Except SyntaxError Form)),
          outcomesUnder .standard text = forms.map .ok ++ .error error :: rest) ∧
      ∀ (forms : List Form) (error : SyntaxError) (rest : List (Except SyntaxError Form)),
        outcomesUnder .standard text = forms.map .ok ++ .error error :: rest →
          ∃ failing, Feed.ReadsForms .standard (Feed.start (Text.ofString text)) forms failing ∧
            (failing.readForm .standard).result = some (.error error) := by
  have hagrees : Feed.Agrees .standard (Feed.start (Text.ofString text))
      (outcomesUnder .standard text) := Feed.agrees_run .standard _
  cases hagrees with
  | forms forms houtcomes hread =>
    have htext : ofString text = .ok forms := hread []
    rw [houtcomes, htext]
    refine ⟨fun forms' => ?_, fun error => ?_, fun forms' error rest h => ?_⟩
    · rw [List.map_inj_right fun _ _ => Except.ok.inj, Except.ok.injEq]
    · refine ⟨nofun, ?_⟩
      rintro ⟨forms', rest, h⟩
      exact absurd h Run.map_ok_ne_error
    · exact absurd h Run.map_ok_ne_error
  | error forms error rest failing houtcomes hforms herror =>
    have htext : ofString text = .error error := by
      rw [ofString, hforms.readForms_eq]
      exact Feed.readForms_of_error herror _
    rw [houtcomes, htext]
    refine ⟨fun forms' => ⟨nofun, fun h => absurd h.symm Run.map_ok_ne_error⟩,
      fun error' => ⟨?_, ?_⟩, fun forms' error' rest' h => ?_⟩
    · rintro ⟨⟩
      exact ⟨forms, rest, rfl⟩
    · rintro ⟨forms', rest', h⟩
      rw [(Run.first_error_inj h).2]
    · obtain ⟨rfl, rfl⟩ := Run.first_error_inj h
      exact ⟨failing, hforms, herror⟩

end Kaleidoscope
