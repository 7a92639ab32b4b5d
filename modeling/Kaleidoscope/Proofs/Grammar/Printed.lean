import Kaleidoscope.Proofs.Grammar.Reading
import Kaleidoscope.Proofs.Lexing
import Kaleidoscope.Proofs.Number.ReadBack

/-!
# The grammar of printed forms

A printed expression is an operand of the grammar: a binary node is a group, whatever the
precedences are. The main statement is that the text of a form lexes to the tokens of a form of the
grammar, which denotes the form again. How deep that one nests is the number of parentheses around
the innermost part, and one more.
-/

namespace Kaleidoscope

namespace Expr

mutual

/-- The deepest nesting of parentheses in the text of an expression, not counting those of calls
without arguments. -/
def extra : Expr → Nat
  | number _ => 0
  | reference _ => 0
  | binary _ left right => 1 + max left.extra right.extra
  | call _ arguments => extraOfArguments arguments

/-- The deepest nesting of parentheses in a call, if there are any arguments. -/
def extraOfArguments : List Expr → Nat
  | [] => 0
  | argument :: others => max (1 + argument.extra) (extraOfArguments others)

end

/-- A call with arguments adds one to the deepest nesting in an argument. -/
theorem extra_call {arguments : List Expr} (h : arguments ≠ []) (callee : String) :
    (call callee arguments).extra = 1 + (arguments.map extra).foldr max 0 := by
  rw [extra]
  induction arguments with
  | nil => exact absurd rfl h
  | cons argument others ih =>
    rw [extraOfArguments, List.map_cons, List.foldr_cons]
    cases others with
    | nil =>
      rw [extraOfArguments, List.map_nil, List.foldr_nil]
      omega
    | cons another others =>
      rw [ih (List.cons_ne_nil _ _)]
      omega

mutual

/-- Whether an expression can be written: its names are names, its numbers have numerals, and its
operators are in a table. -/
def WellFormed (table : OperatorTable) : Expr → Prop
  | number value => value.HasNumeral
  | reference name => IsName name
  | binary operator left right =>
    (∃ precedence, table.precedence? operator = some precedence) ∧ left.WellFormed table ∧
      right.WellFormed table
  | call callee arguments => IsName callee ∧ AreWellFormed table arguments

/-- Whether arguments can be written. -/
def AreWellFormed (table : OperatorTable) : List Expr → Prop
  | [] => True
  | argument :: others => argument.WellFormed table ∧ AreWellFormed table others

end

mutual

/-- An expression as the operand that it is printed as. -/
def printed : Expr → Grammar.Primary
  | number value => .number value
  | reference name => .name name
  | binary operator left right =>
    .group (.chain left.printed (.more operator right.printed .done))
  | call callee arguments => .call callee (printedArguments arguments)

/-- Arguments as they are printed. -/
def printedArguments : List Expr → Grammar.Arguments
  | [] => .none
  | argument :: others => .more (.chain argument.printed .done) (printedArguments others)

end

mutual

/-- What is printed denotes the expression under all precedences. -/
theorem tree_printed (table : OperatorTable) (expr : Expr) : expr.printed.tree table = expr := by
  match expr with
  | .number value => rfl
  | .reference name => rfl
  | .binary operator left right =>
    simp only [printed, Grammar.Primary.tree, Grammar.Phrase.tree, Grammar.Tail.links,
      tree_printed table left, tree_printed table right, Link.grouping_singleton]
  | .call callee arguments =>
    rw [printed, Grammar.Primary.tree, trees_printedArguments]

/-- What is printed denotes the arguments. -/
theorem trees_printedArguments (table : OperatorTable) (arguments : List Expr) :
    (printedArguments arguments).trees table = arguments := by
  match arguments with
  | [] => rfl
  | argument :: others =>
    rw [printedArguments, Grammar.Arguments.trees, Grammar.Phrase.tree, Grammar.Tail.links,
      Link.grouping_nil, tree_printed, trees_printedArguments]

end

mutual

/-- What is printed nests as deep as the text has parentheses. -/
theorem nesting_printed (expr : Expr) : expr.printed.nesting = expr.extra := by
  match expr with
  | .number value => rfl
  | .reference name => rfl
  | .binary operator left right =>
    have hleft := nesting_printed left
    have hright := nesting_printed right
    simp only [printed, Grammar.Primary.nesting, Grammar.Phrase.nesting, Grammar.Tail.nesting,
      extra]
    omega
  | .call callee arguments => exact nesting_printedArguments arguments

/-- Printed arguments nest as deep as their texts have parentheses, and one more. -/
theorem nesting_printedArguments (arguments : List Expr) :
    (printedArguments arguments).nesting = extraOfArguments arguments := by
  match arguments with
  | [] => rfl
  | argument :: others =>
    have hargument := nesting_printed argument
    have hothers := nesting_printedArguments others
    simp only [printedArguments, Grammar.Arguments.nesting, Grammar.Phrase.nesting,
      Grammar.Tail.nesting, extraOfArguments]
    omega

end

mutual

/-- What is printed of an expression that can be written has operators of the table only. -/
theorem valid_printed {table : OperatorTable} {expr : Expr} (h : expr.WellFormed table) :
    expr.printed.Valid table := by
  match expr with
  | .number value => exact trivial
  | .reference name => exact trivial
  | .binary operator left right =>
    obtain ⟨hoperator, hleft, hright⟩ := h
    exact ⟨valid_printed hleft, hoperator, valid_printed hright, trivial⟩
  | .call callee arguments => exact valid_printedArguments h.2

/-- What is printed of arguments that can be written has operators of the table only. -/
theorem valid_printedArguments {table : OperatorTable} {arguments : List Expr}
    (h : AreWellFormed table arguments) : (printedArguments arguments).Valid table := by
  match arguments with
  | [] => exact trivial
  | argument :: others => exact ⟨⟨valid_printed h.1, trivial⟩, valid_printedArguments h.2⟩

end

mutual

/-- The text of an expression lexes to the tokens of what is printed. -/
theorem lexes_printBefore {config : Config} (hregistrable : config.Registrable) {expr : Expr}
    (h : expr.WellFormed config.operators) {rest : List Char} {tokens : List Token}
    (hbreaks : Breaks rest) (hrest : Lexes rest tokens) :
    Lexes (expr.printBefore rest) (expr.printed.tokens ++ tokens) := by
  match expr with
  | .number value =>
    obtain ⟨hne, hpart⟩ := Double.isPart_printNumber h.isNaN h.negative
    have hlexes := Lexes.numeral hne hpart hbreaks hrest
    rw [Double.value_printNumber h.isNaN h.negative] at hlexes
    exact hlexes
  | .reference name => exact Lexes.name h hbreaks hrest
  | .binary operator left right =>
    obtain ⟨⟨precedence, hprecedence⟩, hleft, hright⟩ := h
    have hoperator := isSymbol_of_isOperatorCharacter (hregistrable operator precedence hprecedence)
    obtain ⟨hclosing, hclosed⟩ := Lexes.mark (by decide : isMark ')' = true) hrest
    have hsecond := lexes_printBefore hregistrable hright hclosing hclosed
    obtain ⟨_, hbehind⟩ := Lexes.space hsecond
    obtain ⟨hbefore, hlink⟩ := Lexes.space (.symbol hoperator hbehind)
    have hfirst := lexes_printBefore hregistrable hleft hbefore hlink
    obtain ⟨_, hall⟩ := Lexes.mark (by decide : isMark '(' = true) hfirst
    simp only [printBefore, printed, Grammar.Primary.tokens, Grammar.Phrase.tokens,
      Grammar.Tail.tokens, List.append_assoc, List.cons_append, List.nil_append] at hall ⊢
    exact hall
  | .call callee arguments =>
    obtain ⟨hcallee, harguments⟩ := h
    obtain ⟨hclosing, hclosed⟩ := Lexes.mark (by decide : isMark ')' = true) hrest
    have hinner := lexes_printArguments hregistrable harguments hclosing hclosed
    obtain ⟨hopening, hopened⟩ := Lexes.mark (by decide : isMark '(' = true) hinner
    have hall := Lexes.name hcallee hopening hopened
    rw [printBefore, printed, Grammar.Primary.tokens]
    simp only [List.append_assoc, List.cons_append, List.nil_append] at hall ⊢
    exact hall

/-- The texts of arguments lex to the tokens of what is printed. -/
theorem lexes_printArguments {config : Config} (hregistrable : config.Registrable)
    {arguments : List Expr} (h : AreWellFormed config.operators arguments) {rest : List Char}
    {tokens : List Token} (hbreaks : Breaks rest) (hrest : Lexes rest tokens) :
    Lexes (printArguments arguments rest) ((printedArguments arguments).tokens ++ tokens) := by
  match arguments with
  | [] => exact hrest
  | argument :: others =>
    obtain ⟨hbehind, hothers⟩ := lexes_printFurther hregistrable h.2 hbreaks hrest
    have hall := lexes_printBefore hregistrable h.1 hbehind hothers
    simp only [printArguments, printedArguments, Grammar.Arguments.tokens, Grammar.Phrase.tokens,
      Grammar.Tail.tokens, List.append_nil, List.append_assoc]
    exact hall

/-- The texts of arguments that follow another one lex to the tokens of what is printed. -/
theorem lexes_printFurther {config : Config} (hregistrable : config.Registrable)
    {arguments : List Expr} (h : AreWellFormed config.operators arguments) {rest : List Char}
    {tokens : List Token} (hbreaks : Breaks rest) (hrest : Lexes rest tokens) :
    Breaks (printFurther arguments rest) ∧
      Lexes (printFurther arguments rest)
        ((printedArguments arguments).furtherTokens ++ tokens) := by
  match arguments with
  | [] => exact ⟨hbreaks, hrest⟩
  | argument :: others =>
    obtain ⟨hbehind, hothers⟩ := lexes_printFurther hregistrable h.2 hbreaks hrest
    have hargument := lexes_printBefore hregistrable h.1 hbehind hothers
    obtain ⟨hcomma, hall⟩ := Lexes.mark (by decide : isMark ',' = true) (Lexes.space hargument).2
    refine ⟨hcomma, ?_⟩
    simp only [printFurther, printedArguments, Grammar.Arguments.furtherTokens,
      Grammar.Phrase.tokens, Grammar.Tail.tokens, List.append_nil, List.cons_append,
      List.append_assoc]
    exact hall

end

mutual

/-- What is printed before a text is the text of the expression and that text. -/
theorem printBefore_append (expr : Expr) (rest back : List Char) :
    expr.printBefore (rest ++ back) = expr.printBefore rest ++ back := by
  match expr with
  | .number value => exact (List.append_assoc _ _ _).symm
  | .reference name => exact (List.append_assoc _ _ _).symm
  | .binary operator left right =>
    simp only [printBefore, ← List.cons_append, printBefore_append right, printBefore_append left]
  | .call callee arguments =>
    simp only [printBefore, ← List.cons_append, printArguments_append arguments,
      List.append_assoc]

/-- Arguments are printed in front of whatever comes behind them. -/
theorem printArguments_append (arguments : List Expr) (rest back : List Char) :
    printArguments arguments (rest ++ back) = printArguments arguments rest ++ back := by
  match arguments with
  | [] => rfl
  | argument :: others =>
    rw [printArguments, printArguments, printFurther_append others, printBefore_append argument]

/-- Arguments that follow another one are printed in front of whatever comes behind them. -/
theorem printFurther_append (arguments : List Expr) (rest back : List Char) :
    printFurther arguments (rest ++ back) = printFurther arguments rest ++ back := by
  match arguments with
  | [] => rfl
  | argument :: others =>
    rw [printFurther, printFurther, printFurther_append others, printBefore_append argument,
      List.cons_append, List.cons_append]

end

/-- The text of an expression lexes to the tokens of what is printed, whatever follows it. -/
theorem lexes_print {config : Config} (hregistrable : config.Registrable) {expr : Expr}
    (h : expr.WellFormed config.operators) {rest : List Char} {tokens : List Token}
    (hbreaks : Breaks rest) (hrest : Lexes rest tokens) :
    Lexes (expr.print ++ rest) (expr.printed.tokens ++ tokens) := by
  rw [print, ← printBefore_append, List.nil_append]
  exact lexes_printBefore hregistrable h hbreaks hrest

end Expr

namespace Prototype

/-- Whether a prototype can be written: it has names only. -/
structure WellFormed (prototype : Prototype) : Prop where
  /-- The function has a name. -/
  name : IsName prototype.name
  /-- The parameters have names. -/
  parameters : ∀ parameter ∈ prototype.parameters, IsName parameter

/-- The text of names lexes to the names. -/
theorem lexes_printNames {names : List String} (h : ∀ name ∈ names, IsName name)
    {rest : List Char} {tokens : List Token} (hbreaks : Breaks rest) (hrest : Lexes rest tokens) :
    Lexes (printNames names ++ rest) (names.map Token.identifier ++ tokens) := by
  induction names with
  | nil => exact hrest
  | cons name others ih =>
    have hname := h name List.mem_cons_self
    have hothers := ih fun other hmem => h other (List.mem_cons_of_mem _ hmem)
    cases others with
    | nil => exact Lexes.name hname hbreaks hrest
    | cons another others =>
      obtain ⟨hbehind, hspace⟩ := Lexes.space hothers
      have hall := Lexes.name hname hbehind hspace
      rw [printNames, List.append_assoc, List.cons_append]
      · exact hall
      · exact List.cons_ne_nil _ _

/-- The text of a prototype lexes to its tokens. -/
theorem lexes_print {prototype : Prototype} (h : prototype.WellFormed) {rest : List Char}
    {tokens : List Token} (hrest : Lexes rest tokens) :
    Lexes (prototype.print ++ rest) (Grammar.prototypeTokens prototype ++ tokens) := by
  obtain ⟨hclosing, hclosed⟩ := Lexes.mark (by decide : isMark ')' = true) hrest
  have hparameters := lexes_printNames h.parameters hclosing hclosed
  obtain ⟨hopening, hopened⟩ := Lexes.mark (by decide : isMark '(' = true) hparameters
  have hall := Lexes.name h.name hopening hopened
  rw [print, Grammar.prototypeTokens]
  simp only [List.append_assoc, List.cons_append, List.nil_append] at hall ⊢
  exact hall

end Prototype

/-- A function with a name is not anonymous. -/
theorem Function.isAnonymous_eq_false {function : Function} (h : IsName function.prototype.name) :
    function.isAnonymous = false := by
  obtain ⟨c, rest, hchars, _, _⟩ := h.exists_chars
  have hne : function.prototype.name ≠ "" := by
    intro hempty
    rw [hempty] at hchars
    cases hchars
  cases hanonymous : function.isAnonymous with
  | false => rfl
  | true => exact absurd (String.isEmpty_iff.1 hanonymous) hne

namespace Form

/-- Whether a form can be written. A function without a name has no parameters then. -/
def WellFormed (table : OperatorTable) : Form → Prop
  | external prototype => prototype.WellFormed
  | function content =>
    (content.prototype = ⟨"", []⟩ ∨ content.prototype.WellFormed) ∧ content.body.WellFormed table

/-- Whether the text of a form has no more expressions inside one another than a limit admits. -/
def Fits (limit : Nat) : Form → Prop
  | external _ => True
  | function content => 1 + content.body.extra ≤ limit

/-- A form as it is printed. -/
def printed : Form → Grammar.Item
  | external prototype => .external prototype
  | function content =>
    if content.isAnonymous then .expression (.chain content.body.printed .done)
    else .definition content.prototype (.chain content.body.printed .done)

/-- What is printed is the body alone, or the body behind the prototype. -/
theorem printed_function {table : OperatorTable} {content : Function}
    (h : (function content).WellFormed table) :
    (content = .anonymous content.body ∧
        (function content).printed = .expression (.chain content.body.printed .done) ∧
        (function content).print = content.body.print) ∨
      (content.prototype.WellFormed ∧
        (function content).printed =
          .definition content.prototype (.chain content.body.printed .done) ∧
        (function content).print =
          "def ".toList ++ content.prototype.print ++ ' ' :: content.body.print) := by
  obtain ⟨prototype, body⟩ := content
  obtain ⟨hprototype, _⟩ := h
  rcases hprototype with rfl | hprototype
  · have hanonymous : (Function.anonymous body).isAnonymous = true := rfl
    refine .inl ⟨rfl, ?_, ?_⟩
    · rw [printed]
      exact if_pos hanonymous
    · change Function.print _ = _
      unfold Function.print
      exact if_pos hanonymous
  · have hnamed : Function.isAnonymous ⟨prototype, body⟩ = false :=
      Function.isAnonymous_eq_false hprototype.name
    refine .inr ⟨hprototype, ?_, ?_⟩
    · rw [printed]
      exact if_neg (ne_true_of_eq_false hnamed)
    · change Function.print _ = _
      unfold Function.print
      exact if_neg (ne_true_of_eq_false hnamed)

/-- What is printed denotes the form. -/
theorem form_printed {table : OperatorTable} {form : Form} (h : form.WellFormed table) :
    form.printed.form table = form := by
  cases form with
  | external prototype => rfl
  | function content =>
    have htree : (Grammar.Phrase.chain content.body.printed .done).tree table = content.body := by
      rw [Grammar.Phrase.tree, Grammar.Tail.links, Link.grouping_nil, Expr.tree_printed]
    rcases printed_function h with ⟨hcontent, hprinted, _⟩ | ⟨_, hprinted, _⟩
    · rw [hprinted, Grammar.Item.form, htree, ← hcontent]
    · rw [hprinted, Grammar.Item.form, htree]

/-- What is printed has operators of the table only. -/
theorem valid_printed {table : OperatorTable} {form : Form} (h : form.WellFormed table) :
    form.printed.Valid table := by
  cases form with
  | external prototype => exact trivial
  | function content =>
    have hbody : (Grammar.Phrase.chain content.body.printed .done).Valid table :=
      ⟨Expr.valid_printed h.2, trivial⟩
    rcases printed_function h with ⟨_, hprinted, _⟩ | ⟨_, hprinted, _⟩
    · rw [hprinted]
      exact hbody
    · rw [hprinted]
      exact hbody

/-- What is printed nests within a limit if and only if the form fits. -/
theorem nesting_printed_le {table : OperatorTable} {form : Form} (h : form.WellFormed table)
    (limit : Nat) : form.printed.nesting ≤ limit ↔ form.Fits limit := by
  cases form with
  | external prototype => exact iff_of_true (Nat.zero_le _) trivial
  | function content =>
    have hbody : (Grammar.Phrase.chain content.body.printed .done).nesting =
        1 + content.body.extra := by
      rw [Grammar.Phrase.nesting, Grammar.Tail.nesting, Expr.nesting_printed, Nat.max_zero]
    rcases printed_function h with ⟨_, hprinted, _⟩ | ⟨_, hprinted, _⟩
    · rw [hprinted, Grammar.Item.nesting, hbody]
      rfl
    · rw [hprinted, Grammar.Item.nesting, hbody]
      rfl

/-- The text of a form lexes to the tokens of what is printed. -/
theorem lexes_print {config : Config} (hregistrable : config.Registrable) {form : Form}
    (h : form.WellFormed config.operators) {rest : List Char} {tokens : List Token}
    (hbreaks : Breaks rest) (hrest : Lexes rest tokens) :
    Lexes (form.print ++ rest) (form.printed.tokens ++ tokens) := by
  cases form with
  | external prototype =>
    have hall := Lexes.externWord (Prototype.lexes_print h hrest)
    rw [← List.append_assoc] at hall
    exact hall
  | function content =>
    have hbody := Expr.lexes_print hregistrable h.2 hbreaks hrest
    rcases printed_function h with ⟨_, hprinted, hprint⟩ | ⟨hprototype, hprinted, hprint⟩
    · rw [hprinted, hprint, Grammar.Item.tokens, Grammar.Phrase.tokens, Grammar.Tail.tokens,
        List.append_nil]
      exact hbody
    · have hspace := (Lexes.space hbody).2
      have hall := Lexes.definitionWord (Prototype.lexes_print hprototype hspace)
      rw [hprinted, hprint, Grammar.Item.tokens, Grammar.Phrase.tokens, Grammar.Tail.tokens,
        List.append_nil]
      simp only [List.append_assoc, List.cons_append] at hall ⊢
      exact hall

end Form

end Kaleidoscope
