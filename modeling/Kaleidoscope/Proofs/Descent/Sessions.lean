import Kaleidoscope.Proofs.Descent.Machine
import Kaleidoscope.Proofs.Likeness
import Kaleidoscope.Proofs.Registration

/-!
# The counter between operations

A parser keeps the counter of expressions from one operation to the next, and from one form of a run
to the next. Every operation finds it at zero and leaves it at zero, however many of those before it
have failed, and it does not rise above the limit while one is performed. So the operations of a
session, each of which counts from zero by itself, give what those of the parser give. The main
statement says this of all sequences of operations, and that what comes next depends on nothing but
the tokens to come and the configuration.
-/

namespace Kaleidoscope

variable {σ : Type} [CharStream σ]

/-- What persists does so when a machine that begins no expression is driven. -/
theorem Counted.Persists.drive {config : Config} {R : Counted σ → Counted σ → Prop}
    (hR : Counted.Persists config R) {S T : Type} (machine : Machine S T) (state : S)
    (start : Counted σ) : R start (start.on (start.feed.drive machine state).feed) := by
  obtain ⟨feed, depth, peak⟩ := start
  change R ⟨feed, depth, peak⟩ ⟨(feed.drive machine state).feed, depth, peak⟩
  fun_induction Feed.drive machine state feed with
  | case1 state feed next hmove ih => exact hR.trans (hR.advance _) ih
  | case2 => exact hR.refl _

/-- A call that finds the counter at zero reads what the reader of expressions reads. -/
theorem Descends.readExpr_eq {config : Config} {start stop : Counted σ}
    {result : Except SyntaxError Expr} (h : Descends config .expr start result stop)
    (hdepth : start.depth = 0) : start.feed.readExpr config = ⟨result, stop.feed⟩ := by
  have hdrive := h.drive_eq
  rw [hdepth] at hdrive
  exact hdrive

namespace Counted

/-- The feed behind separators. -/
def skipSeparators (counted : Counted σ) : Counted σ := counted.on counted.feed.skipSeparators

/-- The feed behind a prototype, or where it fails. -/
def skipPrototype (counted : Counted σ) : Counted σ := counted.on counted.feed.readPrototype.feed

omit [CharStream σ] in
/-- A report does not change the counter. -/
def report (counted : Counted σ) (event : Event) : Counted σ :=
  counted.on (counted.feed.report event)

/-- What the reading of a construct comes to where expressions are read by calls that share the
counter. -/
inductive Reads (config : Config) : (construct : Construct) → Counted σ →
    Option (Except SyntaxError construct.Value) → Counted σ → Prop where
  /-- An expression is a call. -/
  | expr {start stop : Counted σ} {result : Except SyntaxError Expr}
    (hexpr : Descends config .expr start result stop) :
    Reads config .expr start (some result) stop
  /-- There are no calls in a prototype. -/
  | prototype {start : Counted σ} :
    Reads config .prototype start (some start.feed.readPrototype.result) start.skipPrototype
  /-- The prototype of a definition fails. -/
  | definitionFails {start : Counted σ} {error : SyntaxError}
    (hprototype : start.advance.feed.readPrototype.result = .error error) :
    Reads config .definition start (some (.error error)) start.advance.skipPrototype
  /-- The body of a definition is a call. -/
  | definition {start stop : Counted σ} {prototype : Prototype} {result : Except SyntaxError Expr}
    (hprototype : start.advance.feed.readPrototype.result = .ok prototype)
    (hbody : Descends config .expr start.advance.skipPrototype result stop) :
    Reads config .definition start (some (result.map fun body => ⟨prototype, body⟩)) stop
  /-- There are no calls in an extern. -/
  | external {start : Counted σ} :
    Reads config .external start (some start.advance.feed.readPrototype.result)
      start.advance.skipPrototype
  /-- An expression that is to be evaluated at once is a call. -/
  | topLevelExpr {start stop : Counted σ} {result : Except SyntaxError Expr}
    (hexpr : Descends config .expr start result stop) :
    Reads config .topLevelExpr start (some (result.map Function.anonymous)) stop
  /-- There is no form before the end of the input. -/
  | formEnd {start : Counted σ} (htoken : start.skipSeparators.lookahead.token = .endOfInput) :
    Reads config .form start none start.skipSeparators
  /-- A form is a definition. -/
  | formDefinition {start stop : Counted σ} {result : Except SyntaxError Function}
    (htoken : start.skipSeparators.lookahead.token = .definitionWord)
    (hread : Reads config .definition start.skipSeparators (some result) stop) :
    Reads config .form start (some (result.map Form.function)) stop
  /-- A form is an extern. -/
  | formExternal {start stop : Counted σ} {result : Except SyntaxError Prototype}
    (htoken : start.skipSeparators.lookahead.token = .externWord)
    (hread : Reads config .external start.skipSeparators (some result) stop) :
    Reads config .form start (some (result.map Form.external)) stop
  /-- A form is an expression that is to be evaluated at once. -/
  | formExpr {start stop : Counted σ} {result : Except SyntaxError Function}
    (hend : start.skipSeparators.lookahead.token ≠ .endOfInput)
    (hdefinition : start.skipSeparators.lookahead.token ≠ .definitionWord)
    (hexternal : start.skipSeparators.lookahead.token ≠ .externWord)
    (hread : Reads config .topLevelExpr start.skipSeparators (some result) stop) :
    Reads config .form start (some (result.map Form.function)) stop

namespace Reads

variable {config : Config} {construct : Construct} {start stop : Counted σ}
  {result : Option (Except SyntaxError construct.Value)}

/-- What persists does so by whatever way a reading is left. -/
theorem persists {R : Counted σ → Counted σ → Prop} (hR : Counted.Persists config R)
    (h : Reads config construct start result stop) : R start stop := by
  induction h with
  | expr hexpr => exact hexpr.persists hR
  | prototype => exact hR.drive _ _ _
  | definitionFails => exact hR.trans (hR.advance _) (hR.drive _ _ _)
  | definition _ hbody =>
    exact hR.trans (hR.trans (hR.advance _) (hR.drive _ _ _)) (hbody.persists hR)
  | external => exact hR.trans (hR.advance _) (hR.drive _ _ _)
  | topLevelExpr hexpr => exact hexpr.persists hR
  | formEnd => exact hR.drive _ _ _
  | formDefinition _ _ ih => exact hR.trans (hR.drive _ _ _) ih
  | formExternal _ _ ih => exact hR.trans (hR.drive _ _ _) ih
  | formExpr _ _ _ _ ih => exact hR.trans (hR.drive _ _ _) ih

/-- A reading gives the counter back as it was, whether it fails or not. -/
theorem restores (h : Reads config construct start result stop) : start.Restores config stop :=
  h.persists (persists_restores config)

/-- A reading that finds the counter at zero gives what is read of the construct. -/
theorem read_eq (h : Reads config construct start result stop) (hdepth : start.depth = 0) :
    start.feed.read config construct = ⟨result, stop.feed⟩ := by
  induction h with
  | expr hexpr => exact congrArg Feed.Outcome.whole (hexpr.readExpr_eq hdepth)
  | prototype => rfl
  | definitionFails hprototype =>
    exact congrArg Feed.Outcome.whole (Feed.readDefinition_of_error hprototype)
  | definition hprototype hbody =>
    exact congrArg Feed.Outcome.whole ((Feed.readDefinition_of_ok hprototype).trans
      (congrArg (Feed.Outcome.map · _) (hbody.readExpr_eq hdepth)))
  | external => rfl
  | topLevelExpr hexpr =>
    exact congrArg (fun outcome => (Feed.Outcome.map outcome _).whole) (hexpr.readExpr_eq hdepth)
  | formEnd htoken => exact Feed.readFormHere_of_end htoken
  | @formDefinition start stop result htoken _ ih =>
    have hread : start.feed.skipSeparators.readDefinition config = ⟨result, stop.feed⟩ :=
      Feed.Outcome.whole_inj (ih hdepth)
    exact (Feed.readFormHere_of_definition htoken).trans
      (congrArg (fun outcome => (Feed.Outcome.map outcome _).whole) hread)
  | @formExternal start stop result htoken _ ih =>
    have hread : start.feed.skipSeparators.readExtern = ⟨result, stop.feed⟩ :=
      Feed.Outcome.whole_inj (ih hdepth)
    exact (Feed.readFormHere_of_external htoken).trans
      (congrArg (fun outcome => (Feed.Outcome.map outcome _).whole) hread)
  | @formExpr start stop result hend hdefinition hexternal _ ih =>
    have hread : start.feed.skipSeparators.readTopLevelExpr config = ⟨result, stop.feed⟩ :=
      Feed.Outcome.whole_inj (ih hdepth)
    exact (Feed.readFormHere_of_expr hend hdefinition hexternal).trans
      (congrArg (fun outcome => (Feed.Outcome.map outcome _).whole) hread)

end Reads

section Existence

variable (config : Config)

/-- A definition can be read in any case. -/
theorem exists_reads_definition (start : Counted σ) :
    ∃ result stop, Reads config .definition start (some result) stop := by
  cases hprototype : start.advance.feed.readPrototype.result with
  | error error => exact ⟨_, _, .definitionFails hprototype⟩
  | ok prototype =>
    obtain ⟨result, stop, hbody⟩ := settles config .expr start.advance.skipPrototype
    exact ⟨_, stop, .definition hprototype hbody⟩

/-- A form can be read in any case, if there is one. -/
theorem exists_reads_form (start : Counted σ) :
    ∃ result stop, Reads config .form start result stop := by
  by_cases hend : start.skipSeparators.lookahead.token = .endOfInput
  · exact ⟨_, _, .formEnd hend⟩
  · by_cases hdefinition : start.skipSeparators.lookahead.token = .definitionWord
    · obtain ⟨result, stop, hread⟩ := exists_reads_definition config start.skipSeparators
      exact ⟨_, stop, .formDefinition hdefinition hread⟩
    · by_cases hexternal : start.skipSeparators.lookahead.token = .externWord
      · exact ⟨_, _, .formExternal hexternal .external⟩
      · obtain ⟨result, stop, hexpr⟩ := settles config .expr start.skipSeparators
        exact ⟨_, stop, .formExpr hend hdefinition hexternal (.topLevelExpr hexpr)⟩

/-- Every construct can be read by calls. -/
theorem exists_reads (start : Counted σ) (construct : Construct) :
    ∃ result stop, Reads config construct start result stop := by
  cases construct with
  | expr =>
    obtain ⟨result, stop, hexpr⟩ := settles config .expr start
    exact ⟨_, stop, .expr hexpr⟩
  | prototype => exact ⟨_, _, .prototype⟩
  | definition =>
    obtain ⟨result, stop, hread⟩ := exists_reads_definition config start
    exact ⟨_, stop, hread⟩
  | external => exact ⟨_, _, .external⟩
  | topLevelExpr =>
    obtain ⟨result, stop, hexpr⟩ := settles config .expr start
    exact ⟨_, stop, .topLevelExpr hexpr⟩
  | form => exact exists_reads_form config start

end Existence

/-- The outcomes of the forms that are read one behind the other to the end of the input, where each
finds the counter as the one before has left it. Where a form fails the token that it failed on is
discarded. -/
inductive Runs (config : Config) :
    Counted σ → List (Except SyntaxError Form) → Counted σ → Prop where
  /-- No form is left. -/
  | ending {start stop : Counted σ} (hread : Reads config .form start none stop) :
    Runs config start [] stop
  /-- A form is read. -/
  | form {start middle stop : Counted σ} {form : Form}
    {outcomes : List (Except SyntaxError Form)}
    (hread : Reads config .form start (some (.ok form)) middle)
    (hrest : Runs config (middle.report (.parsed form.kind)) outcomes stop) :
    Runs config start (.ok form :: outcomes) stop
  /-- A form fails. -/
  | failure {start middle stop : Counted σ} {error : SyntaxError}
    {outcomes : List (Except SyntaxError Form)}
    (hread : Reads config .form start (some (.error error)) middle)
    (hrest : Runs config (middle.report (.rejected error)).advance outcomes stop) :
    Runs config start (.error error :: outcomes) stop

variable {config : Config} {start stop : Counted σ} {outcomes : List (Except SyntaxError Form)}

/-- A run gives the counter back as it was, however many forms of it fail. -/
theorem Runs.restores (h : Runs config start outcomes stop) : start.Restores config stop := by
  have hrestores := persists_restores config (σ := σ)
  induction h with
  | ending hread => exact hread.restores
  | form hread _ ih =>
    exact hrestores.trans hread.restores ⟨ih.depth_eq, ih.peak_le⟩
  | failure hread _ ih =>
    exact hrestores.trans hread.restores ⟨ih.depth_eq, ih.peak_le⟩

/-- A run that finds the counter at zero has the outcomes of a run that counts anew for each form,
and the summary of all outcomes. -/
theorem Runs.runFrom_eq (h : Runs config start outcomes stop) (hdepth : start.depth = 0)
    (done : List (Except SyntaxError Form)) :
    start.feed.runFrom config (.ofOutcomes done) done =
      ⟨done.reverse ++ outcomes, .ofOutcomes (done.reverse ++ outcomes), stop.feed⟩ := by
  induction h generalizing done with
  | @ending start stop hread =>
    have hform : start.feed.readForm config = ⟨none, stop.feed⟩ := hread.read_eq hdepth
    rw [Feed.runFrom_eq, hform, List.append_nil, Summary.ofOutcomes_reverse]
  | @form start middle stop form outcomes hread _ ih =>
    have hform : start.feed.readForm config = ⟨some (.ok form), middle.feed⟩ :=
      hread.read_eq hdepth
    have hrest := ih (hread.restores.depth_eq.trans hdepth) (.ok form :: done)
    rw [List.reverse_cons, List.append_assoc, Summary.ofOutcomes_ok] at hrest
    rw [Feed.runFrom_eq, hform]
    exact hrest
  | @failure start middle stop error outcomes hread _ ih =>
    have hform : start.feed.readForm config = ⟨some (.error error), middle.feed⟩ :=
      hread.read_eq hdepth
    have hrest := ih (hread.restores.depth_eq.trans hdepth) (.error error :: done)
    rw [List.reverse_cons, List.append_assoc, Summary.ofOutcomes_error] at hrest
    rw [Feed.runFrom_eq, hform]
    exact hrest

/-- A run comes to the end of the input in any case. -/
theorem exists_runs (config : Config) {start : Counted σ} (hdepth : start.depth = 0) :
    ∃ outcomes stop, Runs config start outcomes stop := by
  induction hsize : start.feed.size using Nat.strong_induction_on generalizing start with
  | _ size ih =>
    subst hsize
    obtain ⟨result, middle, hread⟩ := exists_reads_form config start
    have hmiddle : middle.depth = 0 := hread.restores.depth_eq.trans hdepth
    have hform : start.feed.readForm config = ⟨result, middle.feed⟩ := hread.read_eq hdepth
    have hresult : (start.feed.readForm config).result = result := congrArg (·.result) hform
    rcases result with _ | error | form
    · exact ⟨_, _, .ending hread⟩
    · have hlt : ((start.feed.readForm config).feed.report (.rejected error)).advance.size <
          start.feed.size := Feed.size_advance_readForm_lt hresult
      rw [hform] at hlt
      have hrest := @ih _ hlt (middle.report (.rejected error)).advance hmiddle rfl
      obtain ⟨outcomes, stop, hrest⟩ := hrest
      exact ⟨_, stop, .failure hread hrest⟩
    · have hlt : (start.feed.readForm config).feed.size < start.feed.size :=
        Feed.size_readForm_lt hresult
      rw [hform] at hlt
      have hrest := @ih _ hlt (middle.report (.parsed form.kind)) hmiddle rfl
      obtain ⟨outcomes, stop, hrest⟩ := hrest
      exact ⟨_, stop, .form hread hrest⟩

end Counted

/-- A parser: the tokens to come with the counter of expressions, and a configuration. -/
structure Parser (σ : Type) where
  /-- The tokens to come and the counter. -/
  counted : Counted σ
  /-- The operators and the depth limit. -/
  config : Config

/-- The reading of a construct as an operation. -/
def Session.Operation.reading : Construct → Operation
  | .expr => .readExpr
  | .prototype => .readPrototype
  | .definition => .readDefinition
  | .external => .readExtern
  | .topLevelExpr => .readTopLevelExpr
  | .form => .readForm

/-- A session is behind the reading of a construct where the operation leaves it. -/
theorem Session.perform_reading (session : Session σ) (construct : Construct) :
    session.perform (.reading construct) = (session.read construct).session := by
  cases construct <;> rfl

namespace Parser

/-- A parser begins with the first token, and no expression has begun. -/
def start (source : σ) (config : Config) : Parser σ := ⟨⟨Feed.start source, 0, 0⟩, config⟩

omit [CharStream σ] in
/-- What a parser is but for the counter. -/
def session (parser : Parser σ) : Session σ := ⟨parser.counted.feed, parser.config⟩

/-- What the parser is behind an operation. -/
inductive Performs : Parser σ → Session.Operation → Parser σ → Prop where
  /-- A registration does not touch the counter. -/
  | register (parser : Parser σ) (c : Char) (precedence : Int32) :
    Performs parser (.register c precedence)
      ⟨parser.counted, (parser.session.register c precedence).session.config⟩
  /-- A removal does not touch the counter. -/
  | remove (parser : Parser σ) (c : Char) :
    Performs parser (.remove c) ⟨parser.counted, (parser.session.remove c).session.config⟩
  /-- A token is discarded. -/
  | advance (parser : Parser σ) :
    Performs parser .advance ⟨parser.counted.advance, parser.config⟩
  /-- A construct is read, or fails. -/
  | reads {parser : Parser σ} {stop : Counted σ} (construct : Construct)
    {result : Option (Except SyntaxError construct.Value)}
    (hreads : parser.counted.Reads parser.config construct result stop) :
    Performs parser (.reading construct) ⟨stop, parser.config⟩
  /-- Forms are read to the end of the input. -/
  | run {parser : Parser σ} {stop : Counted σ} {outcomes : List (Except SyntaxError Form)}
    (hruns : parser.counted.Runs parser.config outcomes stop) :
    Performs parser .run ⟨stop, parser.config⟩

/-- What the parser is behind some operations, the first one first. -/
inductive PerformsAll : Parser σ → List Session.Operation → Parser σ → Prop where
  /-- Nothing is done. -/
  | nil (parser : Parser σ) : PerformsAll parser [] parser
  /-- Something is done first. -/
  | cons {parser middle last : Parser σ} {operation : Session.Operation}
    {operations : List Session.Operation} (hfirst : Performs parser operation middle)
    (hrest : PerformsAll middle operations last) :
    PerformsAll parser (operation :: operations) last

/-- Whether no expression is being read, and there have never been more at a time than the limit. -/
structure Rests (parser : Parser σ) : Prop where
  /-- The counter is at zero. -/
  depth_eq : parser.counted.depth = 0
  /-- It has never been above the limit. -/
  peak_le : parser.counted.peak ≤ parser.config.maxDepth

omit [CharStream σ] in
/-- A parser rests behind what restores the counter. -/
theorem Rests.of_restores {parser : Parser σ} {stop : Counted σ} (h : parser.Rests)
    (hrestores : parser.counted.Restores parser.config stop) :
    (⟨stop, parser.config⟩ : Parser σ).Rests :=
  ⟨hrestores.depth_eq.trans h.depth_eq, hrestores.peak_le h.peak_le⟩

section Steps

variable {parser behind : Parser σ} {operation : Session.Operation}
  {operations : List Session.Operation}

/-- A construct can be read whatever the parser is. -/
theorem exists_performs_reading (parser : Parser σ) (construct : Construct) :
    ∃ behind, Performs parser (.reading construct) behind := by
  obtain ⟨result, stop, hreads⟩ := Counted.exists_reads parser.config parser.counted construct
  exact ⟨_, .reads construct hreads⟩

/-- Every operation can be performed where a parser rests. -/
theorem Rests.exists_performs (h : parser.Rests) (operation : Session.Operation) :
    ∃ behind, Performs parser operation behind := by
  cases operation with
  | register c precedence => exact ⟨_, .register parser c precedence⟩
  | remove c => exact ⟨_, .remove parser c⟩
  | advance => exact ⟨_, .advance parser⟩
  | readExpr => exact exists_performs_reading parser .expr
  | readPrototype => exact exists_performs_reading parser .prototype
  | readDefinition => exact exists_performs_reading parser .definition
  | readExtern => exact exists_performs_reading parser .external
  | readTopLevelExpr => exact exists_performs_reading parser .topLevelExpr
  | readForm => exact exists_performs_reading parser .form
  | run =>
    obtain ⟨outcomes, stop, hruns⟩ := Counted.exists_runs parser.config h.depth_eq
    exact ⟨_, .run hruns⟩

/-- A parser that rests does so again behind an operation. -/
theorem Rests.of_performs (h : parser.Rests) (hperforms : Performs parser operation behind) :
    behind.Rests := by
  cases hperforms with
  | register c precedence =>
    refine ⟨h.depth_eq, ?_⟩
    rcases parser.session.register_cases c precedence with ⟨_, hstep, _⟩ | ⟨hstep, _⟩
    · rw [hstep]
      exact h.peak_le
    · rw [hstep]
      exact h.peak_le
  | remove c => exact ⟨h.depth_eq, h.peak_le⟩
  | advance => exact ⟨h.depth_eq, h.peak_le⟩
  | reads construct hreads => exact h.of_restores hreads.restores
  | run hruns => exact h.of_restores hruns.restores

/-- What calls read is what the session reads. -/
theorem Rests.read_eq (h : parser.Rests) {construct : Construct}
    {result : Option (Except SyntaxError construct.Value)} {stop : Counted σ}
    (hreads : parser.counted.Reads parser.config construct result stop) :
    parser.session.read construct = ⟨result, ⟨stop.feed, parser.config⟩⟩ := by
  rw [Session.read_eq, session, hreads.read_eq h.depth_eq]
  rfl

/-- The outcomes of a run by calls are those of the session's, which counts them. -/
theorem Rests.run_eq (h : parser.Rests) {outcomes : List (Except SyntaxError Form)}
    {stop : Counted σ} (hruns : parser.counted.Runs parser.config outcomes stop) :
    parser.session.run =
      ⟨⟨outcomes, .ofOutcomes outcomes, stop.feed⟩, ⟨stop.feed, parser.config⟩⟩ := by
  rw [Session.run, session, Feed.run, ← Summary.ofOutcomes_nil, hruns.runFrom_eq h.depth_eq []]
  rfl

/-- The session is behind the operation what the parser is. -/
theorem Rests.session_eq (h : parser.Rests) (hperforms : Performs parser operation behind) :
    behind.session = parser.session.perform operation := by
  cases hperforms with
  | register c precedence =>
    change (⟨parser.session.feed, (parser.session.register c precedence).session.config⟩ :
      Session σ) = (parser.session.register c precedence).session
    rw [← Session.feed_register parser.session c precedence]
  | remove c => rfl
  | advance => rfl
  | reads construct hreads =>
    rw [Session.perform_reading, h.read_eq hreads]
    rfl
  | run hruns =>
    rw [Session.perform, h.run_eq hruns]
    rfl

/-- Any number of operations can be performed one behind the other. -/
theorem Rests.exists_performsAll (h : parser.Rests) (operations : List Session.Operation) :
    ∃ behind, PerformsAll parser operations behind := by
  induction operations generalizing parser with
  | nil => exact ⟨_, .nil parser⟩
  | cons operation operations ih =>
    obtain ⟨middle, hfirst⟩ := h.exists_performs operation
    obtain ⟨behind, hrest⟩ := ih (h.of_performs hfirst)
    exact ⟨behind, .cons hfirst hrest⟩

/-- Behind any number of operations the parser rests, and is where the session is. -/
theorem Rests.of_performsAll (h : parser.Rests)
    (hperforms : PerformsAll parser operations behind) :
    behind.Rests ∧ behind.session = parser.session.performAll operations := by
  induction hperforms with
  | nil => exact ⟨h, rfl⟩
  | cons hfirst _ ih =>
    obtain ⟨hrests, hsession⟩ := ih (h.of_performs hfirst)
    rw [h.session_eq hfirst] at hsession
    exact ⟨hrests, hsession⟩

end Steps

/-- When a parser begins it rests. -/
theorem rests_start (source : σ) (config : Config) : (start source config).Rests :=
  ⟨rfl, Nat.zero_le _⟩

end Parser

/-- The counter of expressions does not leak. Whatever operations have been performed, whether or
not they failed, calls that share a counter can have performed them, and the counter is at zero
behind them. From there calls can read every construct and run to the end of the input; in any case
the counter is at zero behind that and has never been above the limit, and the results are those of
the session, the summary of a run included. So a session gives the results of every other one, on
whatever stream, that has the same token in front of it at the same place, the same characters from
the same place on behind that one, and the same configuration. One of them has just begun, and has
seen no form and no error; the two give the same results behind all later operations, too. -/
theorem Session.counter_rests (source : σ) (config : Config) (operations : List Operation) :
    let session := (start source config).performAll operations
    (∃ parser, (Parser.start source config).PerformsAll operations parser) ∧
    (∀ parser, (Parser.start source config).PerformsAll operations parser →
      parser.session = session ∧ parser.Rests ∧
      (∀ construct, ∃ result stop, parser.counted.Reads parser.config construct result stop) ∧
      (∀ construct result stop, parser.counted.Reads parser.config construct result stop →
        session.read construct = ⟨result, ⟨stop.feed, session.config⟩⟩ ∧
        (⟨stop, parser.config⟩ : Parser σ).Rests) ∧
      (∃ outcomes stop, parser.counted.Runs parser.config outcomes stop) ∧
      ∀ outcomes stop, parser.counted.Runs parser.config outcomes stop →
        session.run =
          ⟨⟨outcomes, .ofOutcomes outcomes, stop.feed⟩, ⟨stop.feed, session.config⟩⟩ ∧
        (⟨stop, parser.config⟩ : Parser σ).Rests) ∧
    (∀ (τ : Type) [CharStream τ] (other : Session τ), session.Alike other →
      session.Agrees other) ∧
    ∃ text : Text, session.Alike (start text session.config) ∧
      ∀ later,
        (session.performAll later).Agrees ((start text session.config).performAll later) := by
  intro session
  have hstart := Parser.rests_start source config
  obtain ⟨text, halike⟩ := exists_alike_start source config operations
  refine ⟨hstart.exists_performsAll operations, fun parser hperforms => ?_,
    fun τ _ other h => h.agrees, text, halike, fun later => (halike.performAll later).agrees⟩
  obtain ⟨hrests, hsession⟩ := hstart.of_performsAll hperforms
  have hsession : parser.session = session := hsession
  rw [← hsession]
  exact ⟨rfl, hrests, Counted.exists_reads parser.config parser.counted,
    fun construct result stop h => ⟨hrests.read_eq h, hrests.of_restores h.restores⟩,
    Counted.exists_runs parser.config hrests.depth_eq,
    fun outcomes stop h => ⟨hrests.run_eq h, hrests.of_restores h.restores⟩⟩

end Kaleidoscope
