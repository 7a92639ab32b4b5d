import Kaleidoscope.Form.Reading

/-!
# Sessions

A session reads forms from a stream under a configuration that may change between two forms. A run
reads to the end of the input: where a form fails, the token that it failed on is discarded, and
reading goes on with what follows. The run counts the forms and the failures while it goes on; the
main statement is that these are the numbers of forms and of failures among its outcomes. Reading a
text strictly stops at the first error instead.
-/

namespace Kaleidoscope

/-- How many forms were read, and how many failed. -/
structure Summary where
  /-- The number of forms that were read. -/
  parsed : Nat
  /-- The number of forms that failed. -/
  failed : Nat
  deriving DecidableEq

namespace Summary

/-- The summary before the first form. -/
def nothing : Summary := ⟨0, 0⟩

/-- The summary with one more form that was read. -/
def addForm (summary : Summary) : Summary := { summary with parsed := summary.parsed + 1 }

/-- The summary with one more form that failed. -/
def addFailure (summary : Summary) : Summary := { summary with failed := summary.failed + 1 }

end Summary

/-- What has become of the forms of an input, and the feed at its end. -/
structure Run (σ : Type) where
  /-- The forms that were read and the errors of those that were not, in order. -/
  outcomes : List (Except SyntaxError Form)
  /-- What was counted on the way. -/
  summary : Summary
  /-- The feed at the end of the input. -/
  feed : Feed σ

namespace Run

variable {σ : Type}

/-- Whether a form was read. -/
def isForm : Except SyntaxError Form → Bool
  | .ok _ => true
  | .error _ => false

/-- The forms that were read. -/
def forms (run : Run σ) : List Form := run.outcomes.filterMap Except.toOption

/-- The number of forms that were read, as counted. -/
def parsed (run : Run σ) : Nat := run.summary.parsed

/-- The number of forms that failed, as counted. -/
def failed (run : Run σ) : Nat := run.summary.failed

end Run

namespace Summary

/-- The numbers of forms and of failures among some outcomes. -/
def ofOutcomes (outcomes : List (Except SyntaxError Form)) : Summary :=
  ⟨outcomes.countP Run.isForm, outcomes.countP fun outcome => !Run.isForm outcome⟩

/-- Among no outcomes there is neither a form nor a failure. -/
theorem ofOutcomes_nil : ofOutcomes [] = nothing := rfl

/-- A form in front of other outcomes is one more form. -/
theorem ofOutcomes_ok (form : Form) (outcomes : List (Except SyntaxError Form)) :
    ofOutcomes (.ok form :: outcomes) = (ofOutcomes outcomes).addForm := by
  have hparsed : (Except.ok form :: outcomes).countP Run.isForm =
      outcomes.countP Run.isForm + 1 := List.countP_cons_of_pos rfl
  have hfailed : ((Except.ok form :: outcomes).countP fun outcome => !Run.isForm outcome) =
      outcomes.countP fun outcome => !Run.isForm outcome :=
    List.countP_cons_of_neg Bool.false_ne_true
  rw [ofOutcomes, hparsed, hfailed]
  rfl

/-- An error in front of other outcomes is one more failure. -/
theorem ofOutcomes_error (error : SyntaxError) (outcomes : List (Except SyntaxError Form)) :
    ofOutcomes (.error error :: outcomes) = (ofOutcomes outcomes).addFailure := by
  have hparsed : (Except.error error :: outcomes).countP Run.isForm =
      outcomes.countP Run.isForm := List.countP_cons_of_neg Bool.false_ne_true
  have hfailed : ((Except.error error :: outcomes).countP fun outcome => !Run.isForm outcome) =
      (outcomes.countP fun outcome => !Run.isForm outcome) + 1 := List.countP_cons_of_pos rfl
  rw [ofOutcomes, hparsed, hfailed]
  rfl

/-- The order of the outcomes does not matter. -/
theorem ofOutcomes_reverse (outcomes : List (Except SyntaxError Form)) :
    ofOutcomes outcomes.reverse = ofOutcomes outcomes := by
  rw [ofOutcomes, List.countP_reverse, List.countP_reverse]
  rfl

end Summary

namespace Feed

variable {σ : Type} [CharStream σ]

/-- Reads all forms to the end of the input and reports what becomes of each. The summary of those
before is given, and what became of them, in reverse. -/
def runFrom (config : Config) (summary : Summary) (done : List (Except SyntaxError Form))
    (feed : Feed σ) : Run σ :=
  let read := feed.readForm config
  match _h : read.result with
  | none => ⟨done.reverse, summary, read.feed⟩
  | some (.ok form) =>
    (read.feed.report (.parsed form.kind)).runFrom config summary.addForm (.ok form :: done)
  | some (.error error) =>
    (read.feed.report (.rejected error)).advance.runFrom config summary.addFailure
      (.error error :: done)
termination_by feed.size
decreasing_by
  · exact size_readForm_lt _h
  · exact size_advance_readForm_lt _h

/-- Reads all forms to the end of the input. -/
def run (config : Config) (feed : Feed σ) : Run σ := feed.runFrom config .nothing []

/-- A run that begins with the summary of the outcomes before it ends with the summary of all
outcomes. -/
theorem summary_runFrom (config : Config) {summary : Summary}
    {done : List (Except SyntaxError Form)} (h : summary = .ofOutcomes done) (feed : Feed σ) :
    (feed.runFrom config summary done).summary =
      .ofOutcomes (feed.runFrom config summary done).outcomes := by
  fun_induction runFrom config summary done feed with
  | case1 summary done feed read hresult => exact h.trans (Summary.ofOutcomes_reverse done).symm
  | case2 summary done feed read form hresult ih =>
    apply ih
    rw [h, Summary.ofOutcomes_ok]
  | case3 summary done feed read error hresult ih =>
    apply ih
    rw [h, Summary.ofOutcomes_error]

/-- A run counts its outcomes. -/
theorem summary_run (config : Config) (feed : Feed σ) :
    (feed.run config).summary = .ofOutcomes (feed.run config).outcomes :=
  summary_runFrom config Summary.ofOutcomes_nil.symm feed

/-- The number of forms that a run counts is that of the forms among its outcomes. -/
theorem parsed_run (config : Config) (feed : Feed σ) :
    (feed.run config).parsed = (feed.run config).outcomes.countP Run.isForm :=
  congrArg Summary.parsed (summary_run config feed)

/-- The number of failures that a run counts is that of the errors among its outcomes. -/
theorem failed_run (config : Config) (feed : Feed σ) :
    (feed.run config).failed = (feed.run config).outcomes.countP fun outcome =>
      !Run.isForm outcome :=
  congrArg Summary.failed (summary_run config feed)

/-- Reads all forms to the end of the input, or to the first error; the forms before are given in
reverse. -/
def readForms (config : Config) (done : List Form) (feed : Feed σ) :
    Except SyntaxError (List Form) :=
  let read := feed.readForm config
  match _h : read.result with
  | none => .ok done.reverse
  | some (.ok form) => read.feed.readForms config (form :: done)
  | some (.error error) => .error error
termination_by feed.size
decreasing_by exact size_readForm_lt _h

end Feed

/-- The forms of a text under the standard configuration, or its first error. -/
def Form.ofString (text : String) : Except SyntaxError (List Form) :=
  (Feed.start (Text.ofString text)).readForms .standard []

/-- A stream of forms and the configuration under which they are read. -/
structure Session (σ : Type) where
  /-- The tokens to come. -/
  feed : Feed σ
  /-- The operators and the depth limit. -/
  config : Config

namespace Session

variable {σ : Type}

/-- The token that comes next. -/
def lookahead (session : Session σ) : Lexeme := session.feed.lookahead

/-- The reports so far, the oldest first. -/
def log (session : Session σ) : Array Event := session.feed.log

/-- Something that an operation on a session gives, and the session after it. -/
structure Step (σ α : Type) where
  /-- The result. -/
  result : α
  /-- The session after the operation. -/
  session : Session σ

/-- A reading that leaves the configuration as it is. -/
def withFeed {α : Type} (session : Session σ) (outcome : Feed.Outcome σ α) : Step σ α :=
  ⟨outcome.result, { session with feed := outcome.feed }⟩

/-- Registers a binary operator; the result is what its character was mapped to before. -/
def register (session : Session σ) (c : Char) (precedence : Int32) :
    Step σ (Except OperatorError (Option Int32)) :=
  match session.config.register c precedence with
  | .ok (previous, config) => ⟨.ok previous, { session with config }⟩
  | .error error => ⟨.error error, session⟩

/-- Takes a character out of the operator table; the result is what it was mapped to before. -/
def remove (session : Session σ) (c : Char) : Step σ (Option Int32) :=
  ⟨(session.config.remove c).1, { session with config := (session.config.remove c).2 }⟩

variable [CharStream σ]

/-- Begins a session: the first token is cut at once. -/
def start (source : σ) (config : Config) : Session σ := ⟨Feed.start source, config⟩

/-- The bytes that the stream has fetched. -/
def pulled (session : Session σ) : Nat := CharStream.pulled session.feed.cursor.source

/-- Discards the token that comes next. -/
def advance (session : Session σ) : Session σ := { session with feed := session.feed.advance }

/-- Reads an expression. -/
def readExpr (session : Session σ) : Step σ (Except SyntaxError Expr) :=
  session.withFeed (session.feed.readExpr session.config)

/-- Reads a prototype. -/
def readPrototype (session : Session σ) : Step σ (Except SyntaxError Prototype) :=
  session.withFeed session.feed.readPrototype

/-- Discards the token that comes next, and reads a prototype and a body. -/
def readDefinition (session : Session σ) : Step σ (Except SyntaxError Function) :=
  session.withFeed (session.feed.readDefinition session.config)

/-- Discards the token that comes next, and reads a prototype. -/
def readExtern (session : Session σ) : Step σ (Except SyntaxError Prototype) :=
  session.withFeed session.feed.readExtern

/-- Reads an expression that is to be evaluated at once. -/
def readTopLevelExpr (session : Session σ) : Step σ (Except SyntaxError Function) :=
  session.withFeed (session.feed.readTopLevelExpr session.config)

/-- Reads the next form, if there is one before the end of the input. -/
def readForm (session : Session σ) : Step σ (Option (Except SyntaxError Form)) :=
  session.withFeed (session.feed.readForm session.config)

/-- Reads all forms to the end of the input. -/
def run (session : Session σ) : Step σ (Run σ) :=
  let run := session.feed.run session.config
  ⟨run, { session with feed := run.feed }⟩

end Session

end Kaleidoscope
