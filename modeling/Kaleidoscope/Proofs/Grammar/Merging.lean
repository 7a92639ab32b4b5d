import Kaleidoscope.CommandLine.Program
import Kaleidoscope.Proofs.Grammar.Reparsing

/-!
# Printed forms without separators

Nothing has to stand between two forms, and printed forms on lines of their own have nothing but the
line feed between them. A name at the end of one and a parenthesis at the beginning of the next are
a call then. So a form whose body is a name and an expression that is printed with parentheses
around it become one form; no other forms do, and what has become of two does not take in a third.
The main statement says that printed forms are read as the forms that they become in this way, under
the limit that they need themselves.
-/

namespace Kaleidoscope

variable {config : Config}

namespace Form

/-- The expression of a form without a name, if its text has parentheses around it. -/
def group? : Form → Option Expr
  | external _ => none
  | function content =>
    match content.body with
    | .binary operator left right =>
      if content.prototype = ⟨"", []⟩ then some (.binary operator left right) else none
    | _ => none

/-- The form that two forms become when one is written behind the other, if they become one. -/
def merged? (first second : Form) : Option Form :=
  match first, second.group? with
  | function ⟨prototype, .reference name⟩, some argument =>
    some (.function ⟨prototype, .call name [argument]⟩)
  | _, _ => none

/-- The forms that some forms become when each is written behind the one before. -/
def mergeAll : List Form → List Form
  | [] => []
  | [form] => [form]
  | first :: second :: others =>
    match first.merged? second with
    | some call => call :: mergeAll others
    | none => first :: mergeAll (second :: others)

/-- Whether a form ends with a bare name, and the one behind it begins with a parenthesis: the body
of the one is a variable, and the other is a binary expression to be evaluated at once. -/
def Merges (first second : Form) : Prop :=
  (∃ prototype name, first = .function ⟨prototype, .reference name⟩) ∧
    ∃ operator left right, second = .function (.anonymous (.binary operator left right))

/-- Whether two of some forms that stand next to each other become one. -/
def HasMerging (forms : List Form) : Prop :=
  ∃ before first second after, forms = before ++ first :: second :: after ∧ first.Merges second

/-- Only an expression without a name is printed with parentheses around it. -/
theorem group?_eq_some {form : Form} {argument : Expr} (h : form.group? = some argument) :
    ∃ operator left right, argument = .binary operator left right ∧
      form = .function (.anonymous argument) := by
  cases form with
  | external prototype => cases h
  | function content =>
    obtain ⟨prototype, body⟩ := content
    cases body with
    | number => cases h
    | reference => cases h
    | call => cases h
    | binary operator left right =>
      simp only [group?] at h
      split at h
      · next hprototype =>
        cases h
        subst hprototype
        exact ⟨operator, left, right, rfl, rfl⟩
      · cases h

/-- Two forms that become one become a function whose body is a call. -/
theorem merged?_eq_some {first second merged : Form} (h : first.merged? second = some merged) :
    ∃ prototype name operator left right,
      first = .function ⟨prototype, .reference name⟩ ∧
      second = .function (.anonymous (.binary operator left right)) ∧
      merged = .function ⟨prototype, .call name [.binary operator left right]⟩ := by
  unfold merged? at h
  split at h
  · next prototype name argument hargument =>
    obtain ⟨operator, left, right, rfl, hsecond⟩ := group?_eq_some hargument
    cases h
    exact ⟨prototype, name, operator, left, right, rfl, hsecond, rfl⟩
  · cases h

/-- A variable and a binary expression become a call. -/
theorem merged?_of_group (prototype : Prototype) (name : String) (operator : Char)
    (left right : Expr) :
    merged? (.function ⟨prototype, .reference name⟩)
        (.function (.anonymous (.binary operator left right))) =
      some (.function ⟨prototype, .call name [.binary operator left right]⟩) := rfl

/-- Two forms become one if and only if one ends with a name and the other begins with a
parenthesis. -/
theorem merged?_eq_none_iff {first second : Form} :
    first.merged? second = none ↔ ¬first.Merges second := by
  constructor
  · rintro hnone ⟨⟨prototype, name, rfl⟩, operator, left, right, rfl⟩
    cases hnone
  · intro hmerges
    cases h : first.merged? second with
    | none => rfl
    | some merged =>
      obtain ⟨prototype, name, operator, left, right, hfirst, hsecond, _⟩ := merged?_eq_some h
      exact absurd ⟨⟨prototype, name, hfirst⟩, operator, left, right, hsecond⟩ hmerges

/-- Two forms that become one do so whatever follows. -/
theorem mergeAll_of_some {first second merged : Form} (h : first.merged? second = some merged)
    (others : List Form) :
    mergeAll (first :: second :: others) = merged :: mergeAll others := by
  rw [mergeAll, h]

/-- Two forms that do not become one stay apart. -/
theorem mergeAll_of_none {first second : Form} (h : first.merged? second = none)
    (others : List Form) :
    mergeAll (first :: second :: others) = first :: mergeAll (second :: others) := by
  rw [mergeAll, h]

/-- What comes before a form that no other one takes in does not change what becomes of it. -/
theorem mergeAll_append {form : Form} (h : ∀ other : Form, other.merged? form = none)
    (before after : List Form) :
    mergeAll (before ++ form :: after) = mergeAll before ++ mergeAll (form :: after) := by
  fun_induction mergeAll before with
  | case1 => rfl
  | case2 last => exact mergeAll_of_none (h last) after
  | case3 first second others call hcall ih =>
    rw [List.cons_append, List.cons_append, mergeAll_of_some hcall, ih, List.cons_append]
  | case4 first second others hnone ih =>
    rw [List.cons_append] at ih
    rw [List.cons_append, List.cons_append, mergeAll_of_none hnone, ih, List.cons_append]

/-- Forms do not become more. -/
theorem length_mergeAll_le (forms : List Form) : (mergeAll forms).length ≤ forms.length := by
  fun_induction mergeAll forms with
  | case1 => exact Nat.le_refl _
  | case2 form => exact Nat.le_refl _
  | case3 first second others call hcall ih =>
    simp only [List.length_cons]
    omega
  | case4 first second others hnone ih => exact Nat.succ_le_succ ih

/-- Two forms next to each other that become one become a call, between what becomes of those before
and of those behind. -/
theorem mergeAll_of_merges {first second : Form} (h : first.Merges second)
    (before after : List Form) :
    ∃ prototype name argument,
      first = .function ⟨prototype, .reference name⟩ ∧ second = .function (.anonymous argument) ∧
      mergeAll (before ++ first :: second :: after) =
        mergeAll before ++ .function ⟨prototype, .call name [argument]⟩ :: mergeAll after := by
  obtain ⟨⟨prototype, name, rfl⟩, operator, left, right, rfl⟩ := h
  refine ⟨prototype, name, .binary operator left right, rfl, rfl, ?_⟩
  rw [mergeAll_append, mergeAll_of_some (merged?_of_group prototype name operator left right)]
  -- A variable is printed without parentheses.
  intro other
  rw [merged?_eq_none_iff]
  rintro ⟨_, operator', left', right', hsecond⟩
  cases hsecond

/-- Forms stay as they are if and only if no two of them become one. -/
theorem mergeAll_eq_self_iff {forms : List Form} :
    mergeAll forms = forms ↔ ¬HasMerging forms := by
  constructor
  · rintro heq ⟨before, first, second, after, rfl, hmerges⟩
    obtain ⟨prototype, name, argument, _, _, hmerged⟩ := mergeAll_of_merges hmerges before after
    have hlength := congrArg List.length (hmerged.symm.trans heq)
    have hbefore := length_mergeAll_le before
    have hafter := length_mergeAll_le after
    simp only [List.length_append, List.length_cons] at hlength
    omega
  · intro hnone
    fun_induction mergeAll forms with
    | case1 => rfl
    | case2 form => rfl
    | case3 first second others call hcall ih =>
      refine absurd ⟨[], first, second, others, rfl, ?_⟩ hnone
      by_contra hmerges
      rw [merged?_eq_none_iff.2 hmerges] at hcall
      cases hcall
    | case4 first second others hfirst ih =>
      rw [ih]
      rintro ⟨before, third, fourth, after, heq, hmerges⟩
      exact hnone ⟨first :: before, third, fourth, after, congrArg (first :: ·) heq, hmerges⟩

/-- A form whose text ends with a bare name has this name as its body. -/
theorem exists_reference_of_bare {form : Form} (h : form.printed.bare = true) :
    ∃ prototype name, form = .function ⟨prototype, .reference name⟩ := by
  cases form with
  | external prototype => cases h
  | function content =>
    obtain ⟨prototype, body⟩ := content
    have hbody : body.printed.bare = true := by
      rw [printed] at h
      split at h
      · exact h
      · exact h
    cases body with
    | reference name => exact ⟨prototype, name, rfl⟩
    | number => cases hbody
    | binary => cases hbody
    | call => cases hbody

/-- A form whose text begins with a parenthesis is a binary expression. -/
theorem exists_binary_of_opening {table : OperatorTable} {form : Form} (h : form.WellFormed table)
    {rest : List Token}
    (hopening : (form.printed.tokens ++ rest).headD .endOfInput = .character '(') :
    ∃ operator left right, form = .function (.anonymous (.binary operator left right)) := by
  cases form with
  | external prototype => cases hopening
  | function content =>
    rcases printed_function h with ⟨hcontent, hprinted, _⟩ | ⟨_, hprinted, _⟩
    · rw [hprinted] at hopening
      rw [hcontent]
      cases hbody : content.body with
      | binary operator left right => exact ⟨operator, left, right, rfl⟩
      | number => rw [hbody] at hopening; cases hopening
      | reference => rw [hbody] at hopening; cases hopening
      | call => rw [hbody] at hopening; cases hopening
    · rw [hprinted] at hopening
      cases hopening

/-- Two forms that become one are written with the tokens of one form, which nests no deeper than
they do and does not end with a bare name. -/
theorem exists_item_of_merged? {first second merged : Form}
    (hfirst : first.WellFormed config.operators) (hsecond : second.WellFormed config.operators)
    (h : first.merged? second = some merged) :
    ∃ item : Grammar.Item, item.tokens = first.printed.tokens ++ second.printed.tokens ∧
      item.form config.operators = merged ∧ item.Valid config.operators ∧
      item.nesting = max first.printed.nesting second.printed.nesting ∧ item.bare = false := by
  obtain ⟨prototype, name, operator, left, right, rfl, rfl, rfl⟩ := merged?_eq_some h
  let inner : Grammar.Phrase := .chain left.printed (.more operator right.printed .done)
  let call : Grammar.Phrase := .chain (.call name (.more inner .none)) .done
  obtain ⟨hoperator, hleft, hright⟩ := hsecond.2
  have hvalid : call.Valid config.operators :=
    ⟨⟨⟨Expr.valid_printed hleft, hoperator, Expr.valid_printed hright, trivial⟩, trivial⟩, trivial⟩
  have htree : call.tree config.operators = .call name [.binary operator left right] := by
    simp only [call, inner, Grammar.Phrase.tree, Grammar.Primary.tree, Grammar.Arguments.trees,
      Grammar.Tail.links, Link.grouping_singleton, Link.grouping_nil, Expr.tree_printed]
  have htokens : call.tokens =
      .identifier name :: (Grammar.Phrase.chain (.group inner) .done).tokens := by
    simp only [call, Grammar.Phrase.tokens, Grammar.Primary.tokens, Grammar.Arguments.tokens,
      Grammar.Arguments.furtherTokens, Grammar.Tail.tokens, List.append_nil]
  have hnesting : call.nesting =
      max (Grammar.Phrase.chain (.name name) .done).nesting
        (Grammar.Phrase.chain (.group inner) .done).nesting := by
    simp only [call, Grammar.Phrase.nesting, Grammar.Primary.nesting, Grammar.Arguments.nesting,
      Grammar.Tail.nesting]
    omega
  -- The text of the second form has no prototype, and that of the first one may have.
  rcases printed_function hfirst with ⟨hcontent, hprinted, _⟩ | ⟨_, hprinted, _⟩
  · cases hcontent
    refine ⟨.expression call, ?_, ?_, hvalid, ?_, rfl⟩
    · rw [hprinted]
      exact htokens
    · rw [Grammar.Item.form, htree]
      rfl
    · rw [hprinted]
      exact hnesting
  · refine ⟨.definition prototype call, ?_, ?_, hvalid, ?_, rfl⟩
    · rw [hprinted]
      simp only [Grammar.Item.tokens, htokens, List.cons_append, List.append_assoc]
      rfl
    · rw [Grammar.Item.form, htree]
    · rw [hprinted]
      exact hnesting

/-- The tokens of printed forms without separators. -/
def printedTokens (forms : List Form) : List Token := forms.flatMap fun form => form.printed.tokens

/-- Printed forms are a program of what they become, in which no form takes in the next one. -/
theorem exists_program {forms : List Form} (h : ∀ form ∈ forms, form.WellFormed config.operators)
    (hfits : ∀ form ∈ forms, form.Fits config.maxDepth) :
    ∃ program : Grammar.Program, program.tokens = printedTokens forms ∧
      program.forms config.operators = mergeAll forms ∧ program.Admitted config ∧
      program.Separated := by
  have hadmitted : ∀ form ∈ forms, form.printed.Admitted config := fun form hmem =>
    ⟨valid_printed (h form hmem), (nesting_printed_le (h form hmem) _).2 (hfits form hmem)⟩
  clear hfits
  fun_induction mergeAll forms with
  | case1 => exact ⟨[], rfl, rfl, Grammar.Program.admitted_nil, trivial⟩
  | case2 form =>
    have hform := hadmitted form List.mem_cons_self
    refine ⟨[.item form.printed], rfl, ?_,
      Grammar.Program.admitted_item.2 ⟨hform, Grammar.Program.admitted_nil⟩,
      fun _ => Token.noConfusion, trivial⟩
    exact congrArg (fun form => [form]) (form_printed (h form List.mem_cons_self))
  | case3 first second others call hcall ih =>
    rw [List.forall_mem_cons, List.forall_mem_cons] at h hadmitted
    obtain ⟨program, htokens, hforms, hprogram, hseparated⟩ := ih h.2.2 hadmitted.2.2
    obtain ⟨item, hitem, hform, hvalid, hnesting, hbare⟩ := exists_item_of_merged? h.1 h.2.1 hcall
    have hitemAdmitted : item.Admitted config := by
      refine ⟨hvalid, ?_⟩
      rw [hnesting]
      exact Nat.max_le.2 ⟨hadmitted.1.nesting, hadmitted.2.1.nesting⟩
    refine ⟨.item item :: program, ?_, ?_,
      Grammar.Program.admitted_item.2 ⟨hitemAdmitted, hprogram⟩, ?_, hseparated⟩
    · rw [Grammar.Program.tokens_item, htokens, hitem, List.append_assoc]
      rfl
    · exact congrArg₂ List.cons hform hforms
    · rw [hbare]
      exact Bool.noConfusion
  | case4 first second others hnone ih =>
    rw [List.forall_mem_cons] at h hadmitted
    obtain ⟨program, htokens, hforms, hprogram, hseparated⟩ := ih h.2 hadmitted.2
    refine ⟨.item first.printed :: program, ?_, ?_,
      Grammar.Program.admitted_item.2 ⟨hadmitted.1, hprogram⟩, fun hbare hopening => ?_, hseparated⟩
    · rw [Grammar.Program.tokens_item, htokens]
      rfl
    · exact congrArg₂ List.cons (form_printed h.1) hforms
    · rw [htokens] at hopening
      have hsecond := h.2 second List.mem_cons_self
      exact merged?_eq_none_iff.1 hnone
        ⟨exists_reference_of_bare hbare, exists_binary_of_opening hsecond hopening⟩

/-- Printed forms on lines of their own lex to their tokens. -/
theorem lexes_unlines (hregistrable : config.Registrable) {forms : List Form}
    (h : ∀ form ∈ forms, form.WellFormed config.operators) :
    Lexes (CommandLine.unlines (forms.map text)).toList (printedTokens forms) := by
  induction forms with
  | nil => exact .nil
  | cons form others ih =>
    rw [List.forall_mem_cons] at h
    have hline : (CommandLine.unlines ((form :: others).map text)).toList =
        form.print ++ '\n' :: (CommandLine.unlines (others.map text)).toList := by
      simp only [CommandLine.unlines, String.toList_join, List.map_cons, List.flatMap_cons,
        String.toList_append, text, String.toList_ofList, List.append_assoc]
      rfl
    have hbreaks : Breaks ('\n' :: (CommandLine.unlines (others.map text)).toList) :=
      breaks_cons (by decide) (by decide) _
    rw [hline]
    exact lexes_print hregistrable h.1 hbreaks (.blank (by decide) (ih h.2))

/-- Forms that can be written, and whose parentheses the limit admits, are read without an error
when each is printed on a line of its own. They are read as they are if and only if none of them
ends with a bare name in front of one that begins with a parenthesis; such two are read as a
function whose body is a call, and those before and behind as they are read by themselves. -/
theorem ofStringUnder_unlines (hregistrable : config.Registrable) {forms : List Form}
    (h : ∀ form ∈ forms, form.WellFormed config.operators)
    (hfits : ∀ form ∈ forms, form.Fits config.maxDepth) :
    ofStringUnder config (CommandLine.unlines (forms.map text)) = .ok (mergeAll forms) ∧
      (ofStringUnder config (CommandLine.unlines (forms.map text)) = .ok forms ↔
        ¬HasMerging forms) ∧
      ∀ before first second after, forms = before ++ first :: second :: after →
        first.Merges second →
        ∃ prototype name argument,
          first = .function ⟨prototype, .reference name⟩ ∧
          second = .function (.anonymous argument) ∧
          mergeAll forms =
            mergeAll before ++ .function ⟨prototype, .call name [argument]⟩ :: mergeAll after := by
  have hread : ofStringUnder config (CommandLine.unlines (forms.map text)) =
      .ok (mergeAll forms) := by
    obtain ⟨program, htokens, hforms, hadmitted, hseparated⟩ := exists_program h hfits
    rw [← hforms]
    exact Grammar.Program.ofStringUnder_of_separated hregistrable.keepsPunctuation hseparated
      hadmitted ((lexes_unlines hregistrable h).ofString.trans htokens.symm)
  refine ⟨hread, ?_, ?_⟩
  · rw [hread, Except.ok.injEq]
    exact mergeAll_eq_self_iff
  · rintro before first second after rfl hmerges
    exact mergeAll_of_merges hmerges before after

/-- A definition whose body is a name takes in the sum on the next line, and the sum does not take
in the one behind it. -/
theorem ofStringUnder_unlines_of_sums :
    let sum : Expr := .binary '+' (.reference "y") (.reference "z")
    let forms : List Form := [.function ⟨⟨"f", ["y", "z"]⟩, .reference "g"⟩,
      .function (.anonymous sum), .function (.anonymous sum)]
    CommandLine.unlines (forms.map text) = "def f(y z) g\n(y + z)\n(y + z)\n" ∧
      ofStringUnder .standard (CommandLine.unlines (forms.map text)) =
        .ok [.function ⟨⟨"f", ["y", "z"]⟩, .call "g" [sum]⟩, .function (.anonymous sum)] := by
  intro sum forms
  have hsum : sum.WellFormed .standard :=
    ⟨⟨20, rfl⟩, isName_singleton (by decide), isName_singleton (by decide)⟩
  have hprototype : Prototype.WellFormed ⟨"f", ["y", "z"]⟩ := by
    refine ⟨isName_singleton (by decide), ?_⟩
    rw [List.forall_mem_cons, List.forall_mem_singleton]
    exact ⟨isName_singleton (by decide), isName_singleton (by decide)⟩
  have hforms : ∀ form ∈ forms, form.WellFormed .standard := by
    simp only [forms, List.forall_mem_cons]
    exact ⟨⟨.inr hprototype, isName_singleton (by decide)⟩, ⟨.inl rfl, hsum⟩, ⟨.inl rfl, hsum⟩,
      List.forall_mem_nil _⟩
  have hfits : ∀ form ∈ forms, form.Fits Config.standard.maxDepth := by
    have hextra : 1 + sum.extra ≤ Config.standard.maxDepth := by decide
    simp only [forms, List.forall_mem_cons]
    exact ⟨(by decide : 1 ≤ 128), hextra, hextra, List.forall_mem_nil _⟩
  have hmerged : mergeAll forms =
      [.function ⟨⟨"f", ["y", "z"]⟩, .call "g" [sum]⟩, .function (.anonymous sum)] := by
    rw [mergeAll_of_some (merged?_of_group _ "g" _ _ _), mergeAll]
  rw [← hmerged]
  refine ⟨?_, (ofStringUnder_unlines Config.registrable_standard hforms hfits).1⟩
  rfl

end Form

end Kaleidoscope
