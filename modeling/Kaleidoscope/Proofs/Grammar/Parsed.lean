import Kaleidoscope.Proofs.Grammar.Printed
import Kaleidoscope.Proofs.Grammar.Program

/-!
# What is read can be written

The names of a tree that has been read are names among the tokens, its numbers are values of
numerals, and its operators are in the table. So the forms of a text can be written again.
-/

namespace Kaleidoscope

variable {config : Config} {table : OperatorTable}

/-- A tree over a chain can be written when its operands can, and its operators are in the table. -/
theorem Link.Spans.wellFormed {tree first : Expr} {links : List Link} (h : Spans tree first links)
    (hfirst : first.WellFormed table)
    (hlinks : ∀ link ∈ links, (∃ precedence, table.precedence? link.operator = some precedence) ∧
      link.operand.WellFormed table) : tree.WellFormed table := by
  induction h with
  | operand first => exact hfirst
  | node _ _ ihleft ihright =>
    obtain ⟨hbefore, hroot⟩ := List.forall_mem_append.1 hlinks
    obtain ⟨hroot, hafter⟩ := List.forall_mem_cons.1 hroot
    exact ⟨hroot.1, ihleft hfirst hbefore, ihright hroot.2 hafter⟩

namespace Grammar

/-- Whether all of some tokens can be cut from a text. -/
def AreCut (tokens : List Token) : Prop := ∀ token ∈ tokens, token.IsCut

mutual

/-- An operand of tokens that can be cut denotes a tree that can be written. -/
theorem Primary.wellFormed (primary : Primary) (hvalid : primary.Valid table)
    (h : AreCut primary.tokens) : (primary.tree table).WellFormed table := by
  match primary with
  | .number value => exact h _ List.mem_cons_self
  | .name word => exact h _ List.mem_cons_self
  | .call callee arguments =>
    have hcallee : IsName callee := h (.identifier callee) List.mem_cons_self
    have harguments : AreCut arguments.tokens := fun token hmem =>
      h token (List.mem_cons_of_mem _ (List.mem_cons_of_mem _ (List.mem_append_left _ hmem)))
    exact ⟨hcallee, arguments.wellFormed hvalid harguments⟩
  | .group inner =>
    exact inner.wellFormed hvalid fun token hmem =>
      h token (List.mem_cons_of_mem _ (List.mem_append_left _ hmem))

/-- The tree of an expression is well-formed. -/
theorem Phrase.wellFormed (phrase : Phrase) (hvalid : phrase.Valid table)
    (h : AreCut phrase.tokens) : (phrase.tree table).WellFormed table := by
  match phrase with
  | .chain first tail =>
    obtain ⟨hfirst, htail⟩ := List.forall_mem_append.1 h
    exact (Link.spans_grouping _ _).wellFormed (first.wellFormed hvalid.1 hfirst)
      (tail.wellFormed hvalid.2 htail)

/-- The operands behind an operand have well-formed trees and operators of the table. -/
theorem Tail.wellFormed (tail : Tail) (hvalid : tail.Valid table) (h : AreCut tail.tokens) :
    ∀ link ∈ tail.links table,
      (∃ precedence, table.precedence? link.operator = some precedence) ∧
        link.operand.WellFormed table := by
  match tail with
  | .done => simp [Tail.links]
  | .more operator operand rest =>
    obtain ⟨_, h⟩ := List.forall_mem_cons.1 h
    obtain ⟨hoperand, hrest⟩ := List.forall_mem_append.1 h
    exact List.forall_mem_cons.2 ⟨⟨hvalid.1, operand.wellFormed hvalid.2.1 hoperand⟩,
      rest.wellFormed hvalid.2.2 hrest⟩

/-- The trees of arguments are well-formed. -/
theorem Arguments.wellFormed (arguments : Arguments) (hvalid : arguments.Valid table)
    (h : AreCut arguments.tokens) : Expr.AreWellFormed table (arguments.trees table) := by
  match arguments with
  | .none => exact trivial
  | .more first rest =>
    obtain ⟨hfirst, hrest⟩ := List.forall_mem_append.1 h
    exact ⟨first.wellFormed hvalid.1 hfirst, rest.wellFormed_further hvalid.2 hrest⟩

/-- The trees of arguments that follow another one are well-formed. -/
theorem Arguments.wellFormed_further (arguments : Arguments) (hvalid : arguments.Valid table)
    (h : AreCut arguments.furtherTokens) : Expr.AreWellFormed table (arguments.trees table) := by
  match arguments with
  | .none => exact trivial
  | .more first rest =>
    obtain ⟨_, h⟩ := List.forall_mem_cons.1 h
    obtain ⟨hfirst, hrest⟩ := List.forall_mem_append.1 h
    exact ⟨first.wellFormed hvalid.1 hfirst, rest.wellFormed_further hvalid.2 hrest⟩

end

/-- A prototype of tokens that can be cut can be written. -/
theorem wellFormed_of_prototypeTokens {prototype : Prototype}
    (h : AreCut (prototypeTokens prototype)) : prototype.WellFormed where
  name := h (.identifier prototype.name) List.mem_cons_self
  parameters parameter hmem := by
    have htoken : Token.identifier parameter ∈ prototype.parameters.map Token.identifier :=
      List.mem_map_of_mem hmem
    exact h (.identifier parameter)
      (List.mem_cons_of_mem _ (List.mem_cons_of_mem _ (List.mem_append_left _ htoken)))

/-- A form of tokens that can be cut can be written. -/
theorem Item.wellFormed (item : Item) (hvalid : item.Valid table) (h : AreCut item.tokens) :
    (item.form table).WellFormed table := by
  cases item with
  | external prototype =>
    obtain ⟨_, h⟩ := List.forall_mem_cons.1 h
    exact wellFormed_of_prototypeTokens h
  | definition prototype body =>
    obtain ⟨_, h⟩ := List.forall_mem_cons.1 h
    obtain ⟨hprototype, hbody⟩ := List.forall_mem_append.1 h
    exact ⟨.inr (wellFormed_of_prototypeTokens hprototype), body.wellFormed hvalid hbody⟩
  | expression body => exact ⟨.inl rfl, body.wellFormed hvalid h⟩

/-- The forms of a program of tokens that can be cut can be written. -/
theorem Program.wellFormed {program : Program} (hadmitted : program.Admitted config)
    (h : AreCut program.tokens) :
    ∀ form ∈ program.forms config.operators, form.WellFormed config.operators := by
  intro form hmem
  obtain ⟨entry, hentry, hform⟩ := List.mem_filterMap.1 hmem
  cases entry with
  | separator => cases hform
  | item item =>
    cases hform
    exact item.wellFormed (hadmitted item hentry).valid fun token htoken =>
      h token (List.mem_flatMap.2 ⟨_, hentry, htoken⟩)

end Grammar

/-- The forms of a text can be written. -/
theorem Form.wellFormed_of_ofStringUnder (hregistrable : config.Registrable) {text : String}
    {forms : List Form} (h : ofStringUnder config text = .ok forms) :
    ∀ form ∈ forms, form.WellFormed config.operators := by
  obtain ⟨program, _, hadmitted, htokens, rfl⟩ := Grammar.Program.exists_greedy
    hregistrable.keepsPunctuation (Feed.delivers_ofString text) h
  have hcut : Grammar.AreCut program.tokens := by
    rw [htokens]
    exact fun token hmem => Token.isCut_of_mem_ofString hmem
  exact Grammar.Program.wellFormed hadmitted hcut

end Kaleidoscope
