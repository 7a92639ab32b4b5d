import Kaleidoscope.CommandLine.Program
import Kaleidoscope.Proofs.Lexing
import Kaleidoscope.Proofs.Operations
import Kaleidoscope.Proofs.Runs
import Kaleidoscope.Proofs.Grammar.Forms

/-!
# What the program reports

The program leaves behind what a run over its input gives, and nothing else. Cutting tokens adds to
the log, but nothing that says what became of a form; the run adds one such report for each outcome,
in their order. The kind that a report names is told by the word with which the form begins. The
main statement says so of the exit code, the output and the log, for all arguments that ask for a
run and all inputs.
-/

namespace Kaleidoscope

namespace Event

/-- Whether an event says what became of a form, or of all of them. -/
def isNews : Event → Bool
  | parsed _ => true
  | rejected _ => true
  | finished .. => true
  | _ => false

/-- Whether an event comes from the reading of the input. -/
def isFromSource (event : Event) : Bool := event.target == "kaleidoscope::source"

/-- How a log says an event: its level and its wording. -/
def line (event : Event) : Level × String := (event.level, event.message)

/-- The report of an outcome. -/
def ofOutcome : Except SyntaxError Form → Event
  | .ok form => .parsed form.kind
  | .error error => .rejected error

/-- What the standard log keeps is the news, and what comes from the reading of the input. -/
theorem keeps_and_isFromSource (event : Event) :
    (!event.isFromSource && Verbosity.standard.keeps event) = event.isNews := by
  cases event <;> rfl

end Event

namespace Cursor

variable {σ : Type}

/-- The news that a cursor has reported. -/
def news (cursor : Cursor σ) : List Event := cursor.log.toList.filter Event.isNews

/-- A report that is no news does not add to the news. -/
theorem news_report_of_not {event : Event} (h : event.isNews = false) (cursor : Cursor σ) :
    (cursor.report event).news = cursor.news := by
  rw [news, report, Array.toList_push, List.filter_append, List.filter_singleton, h]
  exact List.append_nil _

/-- A report that is news comes behind the earlier ones. -/
theorem news_report {event : Event} (h : event.isNews = true) (cursor : Cursor σ) :
    (cursor.report event).news = cursor.news ++ [event] := by
  rw [news, report, Array.toList_push, List.filter_append, List.filter_singleton, h]
  rfl

variable [CharStream σ]

/-- A step reports no news. -/
theorem stepped_news (events : List Event) :
    Stepped fun cursor : Cursor σ => cursor.news = events := by
  refine ⟨fun {cursor} h => ?_⟩
  rw [advance]
  split
  · exact h
  · rw [moved]
    split
    · exact h
    · exact (news_report_of_not rfl cursor).trans h

/-- The cutting of a token reports no news. -/
theorem news_scan (cursor : Cursor σ) : cursor.scan.cursor.news = cursor.news := by
  have hcut : cursor.skipGap.cut.cursor.news = cursor.news :=
    (stepped_news cursor.news).cut ((stepped_news cursor.news).skipGap rfl)
  exact (news_report_of_not rfl _).trans hcut

end Cursor

namespace Feed

variable {σ : Type} [CharStream σ] {config : Config} {feed : Feed σ}

/-- The news that has been reported in front of a feed. -/
def news (feed : Feed σ) : List Event := feed.cursor.news

/-- In the beginning no news has been reported. -/
theorem news_start (source : σ) : (start source).news = [] := Cursor.news_scan (Cursor.start source)

/-- On the way along some tokens no news is reported. -/
theorem Leads.news_eq {rest : Feed σ} {used : List Lexeme} (h : Leads feed used rest) :
    rest.news = feed.news := by
  induction h with
  | here => rfl
  | @ahead feed _ _ _ _ ih => exact ih.trans (Cursor.news_scan feed.cursor)

/-- The reading of a form uses up the tokens on some way. -/
theorem leads_readForm (config : Config) (feed : Feed σ) :
    ∃ used, Leads feed used (feed.readForm config).feed := by
  obtain ⟨separators, _, hskip, _⟩ := exists_leads_drive Separators.machine () feed
  have hskip' : Leads feed separators feed.skipSeparators := hskip
  rw [readForm]
  by_cases hend : feed.skipSeparators.lookahead.token = .endOfInput
  · rw [readFormHere_of_end hend]
    exact ⟨separators, hskip'⟩
  · obtain ⟨used, _, hform, _⟩ :=
      exists_leads_drive (FormReader.machine config) .start feed.skipSeparators
    rw [readFormHere_eq_drive hend]
    exact ⟨separators ++ used, hskip'.append hform⟩

/-- A form is read without news. -/
theorem news_readForm (config : Config) (feed : Feed σ) :
    (feed.readForm config).feed.news = feed.news := by
  obtain ⟨used, hleads⟩ := leads_readForm config feed
  exact hleads.news_eq

/-- A run reports its outcomes, each when it has come about. -/
theorem news_run (config : Config) (feed : Feed σ) :
    (feed.run config).feed.news =
      feed.news ++ (feed.run config).outcomes.map Event.ofOutcome := by
  have hrun : ∀ (summary : Summary) (done : List (Except SyntaxError Form)) (feed : Feed σ),
      ∃ outcomes, (feed.runFrom config summary done).outcomes = done.reverse ++ outcomes ∧
        (feed.runFrom config summary done).feed.news =
          feed.news ++ outcomes.map Event.ofOutcome := by
    intro summary done feed
    fun_induction runFrom config summary done feed with
    | case1 summary done feed read hresult =>
      exact ⟨[], (List.append_nil _).symm,
        (news_readForm config feed).trans (List.append_nil _).symm⟩
    | case2 summary done feed read form hresult ih =>
      obtain ⟨outcomes, houtcomes, hnews⟩ := ih
      have hreport : (read.feed.report (.parsed form.kind)).news =
          feed.news ++ [.parsed form.kind] := by
        rw [← news_readForm config feed]
        exact Cursor.news_report rfl _
      refine ⟨.ok form :: outcomes, ?_, ?_⟩
      · rw [houtcomes, List.reverse_cons, List.append_assoc, List.singleton_append]
      · rw [hnews, hreport, List.append_assoc, List.singleton_append]
        rfl
    | case3 summary done feed read error hresult ih =>
      obtain ⟨outcomes, houtcomes, hnews⟩ := ih
      have hreport : (read.feed.report (.rejected error)).advance.news =
          feed.news ++ [.rejected error] := by
        rw [← news_readForm config feed]
        exact (Cursor.news_scan _).trans (Cursor.news_report rfl _)
      refine ⟨.error error :: outcomes, ?_, ?_⟩
      · rw [houtcomes, List.reverse_cons, List.append_assoc, List.singleton_append]
      · rw [hnews, hreport, List.append_assoc, List.singleton_append]
        rfl
  obtain ⟨outcomes, houtcomes, hnews⟩ := hrun .nothing [] feed
  have hsame : (feed.run config).outcomes = outcomes := houtcomes
  rw [hsame]
  exact hnews

end Feed

/-- The kind of the forms that begin with a token. -/
def Form.Kind.ofToken : Token → Kind
  | .externWord => .external
  | .definitionWord => .definition
  | _ => .expression

/-- How a log says that a form of some tokens has been read: it goes by the first of them. -/
def Lexeme.announcement : List Lexeme → String
  | ⟨.externWord, _⟩ :: _ => "parsed an extern"
  | ⟨.definitionWord, _⟩ :: _ => "parsed a function definition"
  | _ => "parsed a top-level expression"

/-- What a log says of a part, if it is a form or fails to be one. -/
def Part.line? : Part → Option (Level × String)
  | separator _ => none
  | form used _ => some (.info, Lexeme.announcement used)
  | failure _ error _ => some (.warn, error.message)

namespace Feed

variable {σ : Type} [CharStream σ] {config : Config} {feed : Feed σ}

/-- A prototype that has been read behind a token has a name. -/
theorem isName_of_readPrototype {prototype : Prototype}
    (h : feed.advance.readPrototype.result = .ok prototype) : IsName prototype.name := by
  obtain ⟨lexemes, hleads, hlexemes⟩ := Grammar.exists_leads_of_readPrototype h
  obtain ⟨lexeme, others, rfl, hname, _⟩ := List.map_eq_cons_iff.1 hlexemes
  obtain ⟨hlookahead, _⟩ := hleads.cons_inv
  have hcut : feed.advance.lookahead.token.IsCut := Cursor.isCut_cut feed.cursor.skipGap
  rw [hlookahead, hname] at hcut
  exact hcut

/-- A definition that has been read has a name. -/
theorem not_isAnonymous_of_readDefinition {function : Function}
    (h : (feed.readDefinition config).result = .ok function) : function.isAnonymous = false := by
  cases hfirst : feed.advance.readPrototype with
  | mk result rest =>
    rw [readDefinition, hfirst] at h
    cases result with
    | error error => cases h
    | ok prototype =>
      obtain ⟨body, _, rfl⟩ := Grammar.exists_of_map_result h
      have hname := isName_of_readPrototype (congrArg Outcome.result hfirst)
      obtain ⟨c, others, hchars, _⟩ := hname.exists_chars
      cases hempty : prototype.name.isEmpty with
      | false => exact hempty
      | true =>
        rw [String.isEmpty_iff.1 hempty] at hchars
        cases hchars

/-- The kind of a form is told by the token that it begins with. -/
theorem kind_of_readFormHere {form : Form}
    (h : (feed.readFormHere config).result = some (.ok form)) :
    form.kind = .ofToken feed.lookahead.token := by
  have hexpr : ((feed.readTopLevelExpr config).map Form.function).result = .ok form →
      form.kind = .expression := by
    intro hread
    obtain ⟨function, hfunction, rfl⟩ := Grammar.exists_of_map_result hread
    obtain ⟨body, _, rfl⟩ := Grammar.exists_of_map_result hfunction
    rfl
  obtain ⟨⟨token, position⟩, cursor⟩ := feed
  cases token with
  | endOfInput => cases h
  | definitionWord =>
    obtain ⟨function, hfunction, rfl⟩ := Grammar.exists_of_map_result (Option.some.inj h)
    rw [Form.kind, not_isAnonymous_of_readDefinition hfunction]
    rfl
  | externWord =>
    obtain ⟨prototype, _, rfl⟩ := Grammar.exists_of_map_result (Option.some.inj h)
    rfl
  | identifier name => exact hexpr (Option.some.inj h)
  | number value => exact hexpr (Option.some.inj h)
  | character c => exact hexpr (Option.some.inj h)

/-- The report of a form says the word that it begins with. -/
theorem announcement_of_readFormHere {form : Form}
    (h : (feed.readFormHere config).result = some (.ok form)) (others : List Lexeme) :
    (Event.parsed form.kind).message = Lexeme.announcement (feed.lookahead :: others) := by
  rw [kind_of_readFormHere h]
  obtain ⟨⟨token, position⟩, cursor⟩ := feed
  cases token <;> rfl

/-- What the log says of each part of an account is the report of its outcome. -/
theorem Accounts.line?_eq {parts : List Part} (h : Accounts config feed parts) :
    ∀ part ∈ parts, part.outcome?.map (Event.line ∘ Event.ofOutcome) = part.line? := by
  induction h with
  | ending => exact List.forall_mem_nil _
  | separator _ _ ih => exact List.forall_mem_cons.2 ⟨rfl, ih⟩
  | @form feed after used form parts hne hread hleads _ ih =>
    refine List.forall_mem_cons.2 ⟨?_, ih⟩
    obtain ⟨others, rfl⟩ := exists_cons_of_form hread hleads
    have hresult : (feed.readFormHere config).result = some (.ok form) := by
      rw [← readForm_of_ne hne, hread]
    have hmessage := announcement_of_readFormHere hresult others
    exact congrArg (fun message => some (Level.info, message)) hmessage
  | failure _ _ _ _ _ ih => exact List.forall_mem_cons.2 ⟨rfl, ih⟩
  | failureAtEnd => exact List.forall_mem_cons.2 ⟨rfl, List.forall_mem_nil _⟩

end Feed

namespace CommandLine

/-- What becomes of the forms of an input. -/
def outcomesOn (config : Config) (input : List InputEvent) : List (Except SyntaxError Form) :=
  ((Feed.start (Lines.ofEvents input)).run config).outcomes

/-- What a form adds to the output. -/
def printed? : Except SyntaxError Form → Option String
  | .ok form => some (form.text ++ "\n")
  | .error _ => none

/-- What is said in the end. -/
def summary (outcomes : List (Except SyntaxError Form)) : Level × String :=
  let parsed := outcomes.countP Run.isForm
  let failed := outcomes.countP fun outcome => !Run.isForm outcome
  (.info, s!"{parsed} forms parsed, {failed} failed")

/-- Whether a program leaves behind what becomes of the forms of an input, and nothing else. -/
structure Outcome.Tells (config : Config) (print : Bool) (input : List InputEvent)
    (outcome : Outcome) : Prop where
  /-- It succeeds if and only if no form fails. -/
  success_iff : outcome.exitCode = 0 ↔ ∀ error, .error error ∉ outcomesOn config input
  /-- If one does, the exit code is one. -/
  exitCode_of_error : ∀ error, .error error ∈ outcomesOn config input → outcome.exitCode = 1
  /-- It prints the forms that have been read, each on a line of its own, or nothing. -/
  output_eq : outcome.output =
    if print then String.join ((outcomesOn config input).filterMap printed?) else ""
  /-- Beside what comes from the reading of the input, the log has one line for each outcome, which
  goes by the word that the form begins with or says the error, and a summary behind them. -/
  log_eq : ∃ events parts, outcome.report = .log events ∧
    Feed.Accounts config (Feed.start (Lines.ofEvents input)) parts ∧
    parts.filterMap Part.outcome? = outcomesOn config input ∧
    (events.filter fun event => !event.isFromSource).map Event.line =
      parts.filterMap Part.line? ++ [summary (outcomesOn config input)]

/-- The news in the log of a run, with the summary, are its outcomes, with the summary. -/
theorem news_execute (config : Config) (input : List InputEvent) (succeeded failed : Nat) :
    (((Feed.start (Lines.ofEvents input)).run config).feed.log.toList ++
        [Event.finished succeeded failed]).filter Event.isNews =
      (outcomesOn config input).map Event.ofOutcome ++ [Event.finished succeeded failed] := by
  have hnews := Feed.news_run config (Feed.start (Lines.ofEvents input))
  rw [Feed.news_start, List.nil_append] at hnews
  rw [List.filter_append]
  exact congrArg (· ++ [Event.finished succeeded failed]) hnews

/-- A job tells what becomes of the forms of every input. -/
theorem Job.tells_execute (job : Job) (input : List InputEvent) :
    (job.execute .standard input).Tells job.config job.print input := by
  have hfailed : ((Feed.start (Lines.ofEvents input)).run job.config).failed = 0 ↔
      ∀ error, .error error ∉ outcomesOn job.config input := by
    rw [Feed.failed_run, List.countP_eq_zero]
    constructor
    · intro h error hmem
      exact h _ hmem rfl
    · intro h outcome hmem
      cases outcome with
      | ok form => exact Bool.false_ne_true
      | error error => exact absurd hmem (h error)
  refine ⟨?_, fun error hmem => if_neg fun h => hfailed.1 h error hmem, ?_, ?_⟩
  · rw [← hfailed, execute]
    dsimp only
    split
    · next h => exact iff_of_true rfl h
    · next h => exact iff_of_false Nat.one_ne_zero h
  · have hprinted : (fun outcome : Except SyntaxError Form =>
        (outcome.toOption.map Form.text).map fun line => line ++ "\n") = printed? := by
      funext outcome
      cases outcome <;> rfl
    rw [execute, unlines, Run.forms, List.map_filterMap, List.map_filterMap, hprinted]
    rfl
  · obtain ⟨parts, hparts⟩ := Feed.exists_accounts job.config (Feed.start (Lines.ofEvents input))
    have hlines : (outcomesOn job.config input).map (Event.line ∘ Event.ofOutcome) =
        parts.filterMap Part.line? := by
      rw [outcomesOn, hparts.outcomes_eq, List.map_filterMap]
      exact List.filterMap_congr hparts.line?_eq
    refine ⟨_, parts, rfl, hparts, hparts.outcomes_eq.symm, ?_⟩
    rw [List.filter_filter, funext Event.keeps_and_isFromSource, news_execute, List.map_append,
      List.map_map, hlines, Feed.parsed_run, Feed.failed_run]
    rfl

/-- The input that options ask for: the standard input, or a file of the host. -/
def Options.input (options : Options) (host : Host) (standardInput : List InputEvent) :
    Except OpenFault (List InputEvent) :=
  match options.file? with
  | none => .ok standardInput
  | some path => host.openFile path

/-- What is to be done on arguments that ask for a run, when their values make a configuration. -/
theorem Host.plan_of_config {host : Host} {arguments : List String} {options : Options}
    {config : Config} (harguments : host.request arguments = .ok (.run options))
    (hconfig : options.config = .ok config) :
    host.plan arguments = .job ⟨config, options.print, options.file?⟩ := by
  rw [plan, harguments, Plan.ofRequest, hconfig]

/-- A run that has an input takes place on it. -/
theorem Host.run_of_input {host : Host} {arguments : List String} {options : Options}
    {config : Config} {standardInput input : List InputEvent}
    (hplan : host.plan arguments = .job ⟨config, options.print, options.file?⟩)
    (hinput : options.input host standardInput = .ok input) (verbosity : Verbosity) :
    host.run arguments verbosity standardInput =
      Job.execute ⟨config, options.print, options.file?⟩ verbosity input := by
  rw [run, hplan]
  rw [Options.input] at hinput
  dsimp only
  cases hfile : options.file? with
  | none =>
    rw [hfile] at hinput
    cases hinput
    rfl
  | some path =>
    rw [hfile] at hinput
    dsimp only at hinput ⊢
    rw [hinput]

/-- Where arguments ask for a run and their values make a configuration, the program runs under that
configuration, and tells what becomes of the forms of every input, whatever bytes it delivers and
whether it fails or not. It tells so of the standard input, and of a file that can be opened, on
every host. -/
theorem tells_run {host : Host} {arguments : List String} {options : Options} {config : Config}
    (harguments : host.request arguments = .ok (.run options))
    (hconfig : options.config = .ok config) :
    (∃ job, host.plan arguments = .job job ∧ job.file? = options.file? ∧
      ∀ input, (job.execute .standard input).Tells config options.print input) ∧
    ∀ standardInput input, options.input host standardInput = .ok input →
      (host.run arguments .standard standardInput).Tells config options.print input := by
  have hplan := host.plan_of_config harguments hconfig
  have htells : ∀ input, (Job.execute ⟨config, options.print, options.file?⟩ .standard input).Tells
      config options.print input := fun input => Job.tells_execute ⟨config, _, _⟩ input
  refine ⟨⟨_, hplan, rfl, htells⟩, fun standardInput input hinput => ?_⟩
  rw [host.run_of_input hplan hinput]
  exact htells input

/-- An extern, a parenthesis that begins nothing, and an expression with a registered operator. -/
def mixed : List UInt8 :=
  [0x65, 0x78, 0x74, 0x65, 0x72, 0x6E, 0x20, 0x66, 0x28, 0x78, 0x29, 0x0A, 0x29, 0x20, 0x61, 0x25,
    0x62]

/-- On the mixed bytes the program prints the two forms, fails on account of the parenthesis, and
logs all three and a summary. -/
theorem tells_run_of_mixed :
    let arguments := ["-p", "-o", "%=40"]
    let config : Config :=
      { Config.standard with operators := OperatorTable.standard.insert '%' 40 }
    Request.ofArguments arguments = .ok (.run ⟨true, ["%=40"], none, none⟩) ∧
      (run arguments .standard mixed ⟨[]⟩).Tells config true [.bytes mixed] ∧
      (run arguments .standard mixed ⟨[]⟩).exitCode = 1 ∧
      (run arguments .standard mixed ⟨[]⟩).output = "extern f(x)\n(a % b)\n" ∧
      ∃ events, (run arguments .standard mixed ⟨[]⟩).report = .log events ∧
        events.map Event.line =
          [(.info, "parsed an extern"),
            (.warn, "2:1: unexpected ')' when expecting an expression"),
            (.info, "parsed a top-level expression"), (.info, "2 forms parsed, 1 failed")] := by
  intro arguments config
  have harguments : Request.ofArguments ["-p", "-o", "%=40"] =
      .ok (.run ⟨true, ["%=40"], none, none⟩) := by cbv
  have hconfig : Options.config ⟨true, ["%=40"], none, none⟩ = .ok config := by cbv
  have hrequest : (Host.ofFolder ⟨[]⟩).request arguments =
      .ok (.run ⟨true, ["%=40"], none, none⟩) := harguments
  obtain ⟨_, hrun⟩ := tells_run hrequest hconfig
  exact ⟨harguments, hrun [.bytes mixed] _ rfl, by decide +kernel, by decide +kernel, _, rfl,
    by decide +kernel⟩

end CommandLine

end Kaleidoscope
