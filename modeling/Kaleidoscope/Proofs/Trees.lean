import Kaleidoscope.Proofs.FirstError
import Kaleidoscope.Proofs.Locality
import Kaleidoscope.Proofs.Refusals
import Kaleidoscope.Proofs.Reports
import Kaleidoscope.Proofs.Grammar.Parsed

/-!
# The trees that are read

Every token that a session comes to has been cut from its stream: a word is a name or one of the two
that begin forms, and a number has a numeral. So whatever is read can be written with the operators
of the table under which it is read, whatever stream it comes from, and the token that a form begins
with tells whether it has a name. The main statement says so of every reading and of every run that
operations on a session lead to.
-/

namespace Kaleidoscope

/-- Whether what is read of a construct can be written with the operators of a table. A definition
has a name then, and an expression that is to be evaluated at once has none. -/
def Construct.WellFormed (table : OperatorTable) : (construct : Construct) → construct.Value → Prop
  | expr => Expr.WellFormed table
  | prototype => Prototype.WellFormed
  | definition => fun function =>
    function.prototype.WellFormed ∧ function.body.WellFormed table
  | external => Prototype.WellFormed
  | topLevelExpr => fun function =>
    function = .anonymous function.body ∧ function.body.WellFormed table
  | form => Form.WellFormed table

/-- Whether a form is such as a token begins. -/
structure Form.IsBegunBy (form : Form) (token : Token) : Prop where
  /-- What a report calls it goes by the token. -/
  kind_eq : form.kind = .ofToken token
  /-- A function has no name if and only if the token does not begin a definition. -/
  isAnonymous_iff : ∀ function, form = .function function →
    (function.isAnonymous = true ↔ token ≠ .definitionWord)

/-- The kind tells whether a function has a name. -/
theorem Form.isBegunBy_of_kind {form : Form} {token : Token} (h : form.kind = .ofToken token) :
    form.IsBegunBy token := by
  refine ⟨h, ?_⟩
  rintro function rfl
  rw [kind] at h
  split at h
  · next hanonymous =>
    refine iff_of_true hanonymous ?_
    rintro rfl
    cases h
  · next hnamed =>
    refine iff_of_false hnamed ?_
    cases token with
    | definitionWord => exact fun hne => hne rfl
    | _ => cases h

/-- Whether a part is a form such as the first of its tokens begins, if it is a form. -/
def Part.IsBegun : Part → Prop
  | separator _ => True
  | form used content => ∃ first others, used = first :: others ∧ content.IsBegunBy first.token
  | failure _ _ _ => True

namespace Feed

variable {σ : Type} [CharStream σ] {config : Config} {feed : Feed σ}

/-- Every token that comes next has been cut. -/
theorem kept_isCut : Kept fun feed : Feed σ => feed.lookahead.token.IsCut :=
  ⟨fun {feed} _ => Cursor.isCut_cut feed.cursor.skipGap, fun _ h => h⟩

/-- All tokens on a way have been cut. -/
theorem Leads.areCut {rest : Feed σ} {used : List Lexeme} (h : Leads feed used rest)
    (hcut : feed.lookahead.token.IsCut) : Grammar.AreCut (used.map Lexeme.token) := by
  induction h with
  | here => exact List.forall_mem_nil _
  | ahead _ _ ih => exact List.forall_mem_cons.2 ⟨hcut, ih (kept_isCut.advance hcut)⟩

/-- An expression that has been read can be written. -/
theorem wellFormed_readExpr (hcut : feed.lookahead.token.IsCut) {expr : Expr}
    (h : (feed.readExpr config).result = .ok expr) : expr.WellFormed config.operators := by
  obtain ⟨lexemes, phrase, hleads, htokens, hvalid, _, rfl⟩ := Grammar.exists_phrase_of_readExpr h
  refine phrase.wellFormed hvalid ?_
  rw [htokens]
  exact hleads.areCut hcut

/-- A prototype that has been read can be written. -/
theorem wellFormed_readPrototype (hcut : feed.lookahead.token.IsCut) {prototype : Prototype}
    (h : feed.readPrototype.result = .ok prototype) : prototype.WellFormed := by
  obtain ⟨lexemes, hleads, htokens⟩ := Grammar.exists_leads_of_readPrototype h
  apply Grammar.wellFormed_of_prototypeTokens
  rw [← htokens]
  exact hleads.areCut hcut

/-- A definition that has been read can be written. -/
theorem wellFormed_readDefinition (hcut : feed.lookahead.token.IsCut) {function : Function}
    (h : (feed.readDefinition config).result = .ok function) :
    Construct.definition.WellFormed config.operators function := by
  have hfirst := kept_isCut.advance hcut
  have hbehind := kept_isCut.readPrototype hfirst
  cases hprototype : feed.advance.readPrototype with
  | mk result rest =>
    rw [readDefinition, hprototype] at h
    rw [hprototype] at hbehind
    cases result with
    | error error => cases h
    | ok prototype =>
      obtain ⟨body, hbody, rfl⟩ := Grammar.exists_of_map_result h
      exact ⟨wellFormed_readPrototype hfirst (congrArg Outcome.result hprototype),
        wellFormed_readExpr hbehind hbody⟩

/-- An expression that has been read to be evaluated at once can be written. -/
theorem wellFormed_readTopLevelExpr (hcut : feed.lookahead.token.IsCut) {function : Function}
    (h : (feed.readTopLevelExpr config).result = .ok function) :
    Construct.topLevelExpr.WellFormed config.operators function := by
  obtain ⟨body, hbody, rfl⟩ := Grammar.exists_of_map_result h
  exact ⟨rfl, wellFormed_readExpr hcut hbody⟩

/-- A form that has been read from the lookahead on can be written. -/
theorem wellFormed_readFormHere (hcut : feed.lookahead.token.IsCut) {form : Form}
    (h : (feed.readFormHere config).result = some (.ok form)) :
    form.WellFormed config.operators := by
  have hexpr : ((feed.readTopLevelExpr config).map Form.function).result = .ok form →
      form.WellFormed config.operators := by
    intro hread
    obtain ⟨function, hfunction, rfl⟩ := Grammar.exists_of_map_result hread
    obtain ⟨hanonymous, hbody⟩ := wellFormed_readTopLevelExpr hcut hfunction
    exact ⟨.inl (congrArg Function.prototype hanonymous), hbody⟩
  obtain ⟨⟨token, position⟩, cursor⟩ := feed
  cases token with
  | endOfInput => cases h
  | definitionWord =>
    obtain ⟨function, hfunction, rfl⟩ := Grammar.exists_of_map_result (Option.some.inj h)
    obtain ⟨hprototype, hbody⟩ := wellFormed_readDefinition hcut hfunction
    exact ⟨.inr hprototype, hbody⟩
  | externWord =>
    obtain ⟨prototype, hprototype, rfl⟩ := Grammar.exists_of_map_result (Option.some.inj h)
    exact wellFormed_readPrototype (kept_isCut.advance hcut) hprototype
  | identifier name => exact hexpr (Option.some.inj h)
  | number value => exact hexpr (Option.some.inj h)
  | character c => exact hexpr (Option.some.inj h)

/-- Whatever has been read of any construct can be written. -/
theorem wellFormed_read (hcut : feed.lookahead.token.IsCut) {construct : Construct}
    {value : construct.Value} (h : (feed.read config construct).result = some (.ok value)) :
    construct.WellFormed config.operators value := by
  cases construct with
  | expr => exact wellFormed_readExpr hcut (Option.some.inj h)
  | prototype => exact wellFormed_readPrototype hcut (Option.some.inj h)
  | definition => exact wellFormed_readDefinition hcut (Option.some.inj h)
  | external => exact wellFormed_readPrototype (kept_isCut.advance hcut) (Option.some.inj h)
  | topLevelExpr => exact wellFormed_readTopLevelExpr hcut (Option.some.inj h)
  | form => exact wellFormed_readFormHere (kept_isCut.drive Separators.machine () hcut) h

/-- The forms of a run can be written. -/
theorem wellFormed_run (hcut : feed.lookahead.token.IsCut) {form : Form}
    (h : .ok form ∈ (feed.run config).outcomes) : form.WellFormed config.operators := by
  obtain ⟨before, hbefore, hread⟩ := kept_isCut.exists_readForm hcut h
  exact @wellFormed_read _ _ _ _ hbefore .form form hread

/-- A form that has been read is such as the first token behind some semicolons begins. -/
theorem exists_first_of_readForm {form : Form}
    (h : (feed.readForm config).result = some (.ok form)) :
    ∃ (separators : List Lexeme) (first : Lexeme) (others : List Lexeme),
      Leads feed (separators ++ first :: others) (feed.readForm config).feed ∧
      (∀ lexeme ∈ separators, lexeme.token = .character ';') ∧
      first.token ≠ .character ';' ∧ form.IsBegunBy first.token := by
  obtain ⟨separators, hseparators, hskip, hne⟩ := exists_separators feed
  obtain ⟨used, hused⟩ := exists_used config hne
  rw [readForm_of_separators hskip hseparators] at h ⊢
  have hread : feed.skipSeparators.readForm config =
      ⟨some (.ok form), (feed.skipSeparators.readForm config).feed⟩ := by rw [← h]
  obtain ⟨others, rfl⟩ := exists_cons_of_form hread hused
  refine ⟨separators, feed.skipSeparators.lookahead, others, hskip.append hused, hseparators, hne,
    Form.isBegunBy_of_kind (@kind_of_readFormHere _ _ config _ form ?_)⟩
  rw [← readForm_of_ne hne]
  exact h

/-- Every form in an account is such as the first of its tokens begins. -/
theorem Accounts.isBegun {parts : List Part} (h : Accounts config feed parts) :
    ∀ part ∈ parts, part.IsBegun := by
  induction h with
  | ending => exact List.forall_mem_nil _
  | separator _ _ ih => exact List.forall_mem_cons.2 ⟨trivial, ih⟩
  | @form feed after used form parts hne hread hleads _ ih =>
    refine List.forall_mem_cons.2 ⟨?_, ih⟩
    obtain ⟨others, hused⟩ := exists_cons_of_form hread hleads
    have hresult : (feed.readFormHere config).result = some (.ok form) := by
      rw [← readForm_of_ne hne, hread]
    exact ⟨_, others, hused, Form.isBegunBy_of_kind (kind_of_readFormHere hresult)⟩
  | failure _ _ _ _ _ ih => exact List.forall_mem_cons.2 ⟨trivial, ih⟩
  | failureAtEnd => exact List.forall_mem_cons.2 ⟨trivial, List.forall_mem_nil _⟩

end Feed

namespace Session

variable {σ : Type} [CharStream σ]

/-- Whatever operations have been performed on a session, what it reads of any construct can be
written with the operators that it has at the time: variables, functions and parameters have names,
numbers have numerals, and operators have positive precedences. A form, read by itself or in a run,
is such as its first token begins: what the log calls it goes by that token, and it is a function
without a name only where that one is no word of a definition. -/
theorem reads_wellFormed (source : σ) (config : Config) (operations : List Operation) :
    let session := (start source config).performAll operations
    (∀ (construct : Construct) (value : construct.Value),
      (session.read construct).result = some (.ok value) →
        construct.WellFormed session.config.operators value) ∧
    (∀ form, session.readForm.result = some (.ok form) →
      ∃ (separators : List Lexeme) (first : Lexeme) (others : List Lexeme),
        Feed.Leads session.feed (separators ++ first :: others) session.readForm.session.feed ∧
        (∀ lexeme ∈ separators, lexeme.token = .character ';') ∧
        first.token ≠ .character ';' ∧ form.IsBegunBy first.token) ∧
    (∃ parts, Feed.Accounts session.config session.feed parts ∧
      session.run.result.outcomes = parts.filterMap Part.outcome? ∧
      session.run.session.feed.news =
        session.feed.news ++ session.run.result.outcomes.map Event.ofOutcome ∧
      ∀ used form, .form used form ∈ parts → form.WellFormed session.config.operators ∧
        ∃ first others, used = first :: others ∧ form.IsBegunBy first.token) ∧
    ∀ forms, session.feed.readForms session.config [] = .ok forms →
      ∀ form ∈ forms, form.WellFormed session.config.operators := by
  intro session
  have hcut : session.feed.lookahead.token.IsCut :=
    kept_performAll Feed.kept_isCut (Cursor.isCut_cut (Cursor.start source).skipGap) operations
  refine ⟨fun construct value h => ?_, fun form h => Feed.exists_first_of_readForm h, ?_,
    fun forms h form hmem => ?_⟩
  · rw [read_eq] at h
    exact Feed.wellFormed_read hcut h
  · obtain ⟨parts, hparts⟩ := Feed.exists_accounts session.config session.feed
    have houtcomes : session.run.result.outcomes = parts.filterMap Part.outcome? :=
      hparts.outcomes_eq
    refine ⟨parts, hparts, houtcomes, Feed.news_run session.config session.feed,
      fun used form hmem => ⟨Feed.wellFormed_run hcut ?_, hparts.isBegun _ hmem⟩⟩
    have hform : .ok form ∈ session.run.result.outcomes := by
      rw [houtcomes]
      exact List.mem_filterMap.2 ⟨_, hmem, rfl⟩
    exact hform
  · apply Feed.wellFormed_run hcut
    rw [Feed.outcomes_of_readForms h]
    exact List.mem_map_of_mem hmem

end Session

end Kaleidoscope
