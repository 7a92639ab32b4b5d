import Kaleidoscope.Session
import Kaleidoscope.Proofs.FormMachine
import Kaleidoscope.Proofs.Grammar.Forms

/-!
# Programs

A program is a sequence of forms and semicolons. One text may be such a sequence in several ways,
since nothing has to stand between two forms: a name in front of a parenthesis may be a form of its
own, or begin a call. The reader takes every form to be as long as possible. The main statement says
that this loses nothing: what is a program in some way is read, and what is read is the program in
which no form can be longer.
-/

namespace Kaleidoscope

/-- The forms of a text under a configuration, or its first error. -/
def Form.ofStringUnder (config : Config) (text : String) : Except SyntaxError (List Form) :=
  (Feed.start (Text.ofString text)).readForms config []

namespace Feed

variable {config : Config} {σ : Type} [CharStream σ] {feed : Feed σ}

/-- One form decides how the reading goes on: there may be none, it is kept in front of the others,
or it is in error. -/
theorem readForms_eq (feed : Feed σ) (done : List Form) :
    feed.readForms config done =
      match (feed.readForm config).result with
      | none => .ok done.reverse
      | some (.ok form) => (feed.readForm config).feed.readForms config (form :: done)
      | some (.error error) => .error error := by
  rw [readForms]
  split
  · next hnone => rw [hnone]
  · next hform => rw [hform]
  · next herror => rw [herror]

/-- Semicolons do not change what is read. -/
theorem readForms_of_separator (h : feed.lookahead.token = .character ';') (done : List Form) :
    feed.readForms config done = feed.advance.readForms config done := by
  rw [readForms_eq, readForm_of_separator h, ← readForms_eq]

end Feed

namespace Grammar

/-- A part of a program. -/
inductive Entry where
  /-- A semicolon. -/
  | separator
  /-- A form. -/
  | item (content : Item)

/-- The tokens of a part. -/
def Entry.tokens : Entry → List Token
  | separator => [.character ';']
  | item content => content.tokens

/-- The form that a part denotes, if it is one. -/
def Entry.form? (table : OperatorTable) : Entry → Option Form
  | separator => none
  | item content => some (content.form table)

/-- A program as it is written. -/
abbrev Program := List Entry

namespace Program

variable {config : Config}

/-- The tokens of a program. -/
def tokens (program : Program) : List Token := program.flatMap Entry.tokens

/-- A semicolon is one token. -/
theorem tokens_separator (rest : Program) :
    tokens (.separator :: rest) = .character ';' :: tokens rest := by
  rw [tokens, List.flatMap_cons]
  rfl

/-- A form has the tokens that it is written with. -/
theorem tokens_item (item : Item) (rest : Program) :
    tokens (.item item :: rest) = item.tokens ++ tokens rest := by
  rw [tokens, List.flatMap_cons]
  rfl

/-- The forms of a program, in their order. -/
def forms (table : OperatorTable) (program : Program) : List Form :=
  program.filterMap (Entry.form? table)

/-- Whether all forms of a program have operators of a configuration only, and nest within its
limit. -/
def Admitted (config : Config) (program : Program) : Prop :=
  ∀ item, Entry.item item ∈ program → item.Admitted config

/-- Whether no form takes more of the tokens of another one and of those behind it. -/
def Longest (table : OperatorTable) (item : Item) (rest : List Token) : Prop :=
  ∀ other : Item, other.Valid table → other.tokens <+: item.tokens ++ rest →
    other.tokens.length ≤ item.tokens.length

/-- Whether every form of a program is as long as it can be with the tokens that are there. -/
def Greedy (table : OperatorTable) : Program → Prop
  | [] => True
  | .separator :: rest => Greedy table rest
  | .item item :: rest => Longest table item (tokens rest) ∧ Greedy table rest

/-- Whether no form of a program ends with a bare name in front of a parenthesis. -/
def Separated : Program → Prop
  | [] => True
  | .separator :: rest => Separated rest
  | .item item :: rest =>
    (item.bare = true → (tokens rest).headD .endOfInput ≠ .character '(') ∧ Separated rest

end Program

/-- A form has a first token, and a parenthesis is the only character that may be the first. -/
theorem Item.exists_tokens (item : Item) :
    ∃ token rest, item.tokens = token :: rest ∧ ∀ c, token = .character c → c = '(' := by
  cases item with
  | external prototype => exact ⟨.externWord, _, rfl, by simp⟩
  | definition prototype body => exact ⟨.definitionWord, _, rfl, by simp⟩
  | expression body =>
    obtain ⟨token, rest, htokens, hbegins⟩ := body.exists_tokens
    refine ⟨token, rest, htokens, fun c hc => ?_⟩
    subst hc
    cases hbegins
    rfl

namespace Program

variable {config : Config}

/-- No program begins with an operator. -/
theorem operator?_head (hkeeps : config.operators.KeepsPunctuation) (program : Program) :
    config.operator? (program.tokens.headD .endOfInput) = none := by
  cases program with
  | nil => rfl
  | cons entry rest =>
    cases entry with
    | separator =>
      rw [tokens_separator]
      exact Config.operator?_character hkeeps.separator
    | item item =>
      obtain ⟨token, others, htokens, hcharacter⟩ := item.exists_tokens
      rw [tokens_item, htokens]
      change config.operator? token = none
      cases token with
      | character c =>
        obtain rfl := hcharacter c rfl
        exact Config.operator?_character hkeeps.opening
      | _ => rfl

/-- The empty program is admitted. -/
theorem admitted_nil : Admitted config [] := by
  simp [Admitted]

/-- A semicolon does not change whether a program is admitted. -/
theorem admitted_separator {rest : Program} :
    Admitted config (.separator :: rest) ↔ rest.Admitted config := by
  constructor
  · exact fun h item hmem => h item (List.mem_cons_of_mem _ hmem)
  · exact fun h item hmem => h item ((List.mem_cons.1 hmem).resolve_left nofun)

/-- A form has to be admitted itself. -/
theorem admitted_item {item : Item} {rest : Program} :
    Admitted config (.item item :: rest) ↔ item.Admitted config ∧ rest.Admitted config := by
  constructor
  · intro h
    exact ⟨h item List.mem_cons_self, fun other hmem => h other (List.mem_cons_of_mem _ hmem)⟩
  · rintro ⟨hitem, hrest⟩ other hmem
    rcases List.mem_cons.1 hmem with heq | hmem
    · cases heq
      exact hitem
    · exact hrest other hmem

/-- A program whose forms are separated is read if they are admitted. Otherwise the error is that of
the first one that nests too deep. -/
theorem readForms_of_separated (hkeeps : config.operators.KeepsPunctuation) {program : Program}
    (hseparated : program.Separated)
    (hvalid : ∀ item, Entry.item item ∈ program → item.Valid config.operators) {σ : Type}
    [CharStream σ] {feed : Feed σ} (h : feed.Delivers program.tokens) (done : List Form) :
    (program.Admitted config →
        feed.readForms config done = .ok (done.reverse ++ program.forms config.operators)) ∧
      (¬program.Admitted config → ∃ position,
        feed.readForms config done = .error (.nestingTooDeep config.maxDepth position)) := by
  induction program generalizing feed done with
  | nil =>
    refine ⟨fun _ => ?_, fun hnot => absurd admitted_nil hnot⟩
    rw [Feed.readForms_eq, Feed.readForm_of_end h.lookahead_nil]
    exact congrArg _ (List.append_nil _).symm
  | cons entry rest ih =>
    have hrest : ∀ item, Entry.item item ∈ rest → item.Valid config.operators :=
      fun item hmem => hvalid item (List.mem_cons_of_mem _ hmem)
    cases entry with
    | separator =>
      rw [tokens_separator] at h
      rw [Feed.readForms_of_separator h.lookahead_cons, admitted_separator]
      exact ih hseparated hrest h.advance done
    | item item =>
      obtain ⟨hitem, hseparated⟩ := hseparated
      have hvalid := hvalid item List.mem_cons_self
      rw [tokens_item] at h
      rw [admitted_item]
      obtain ⟨outcome, hread, hyields⟩ := item.yields hkeeps hvalid h
      have hne : feed.lookahead.token ≠ .character ';' := by
        obtain ⟨token, others, htokens, hcharacter⟩ := item.exists_tokens
        rw [htokens, List.cons_append] at h
        rw [h.lookahead_cons]
        intro htoken
        have hopening := hcharacter ';' htoken
        simp at hopening
      have hform : feed.readForm config = feed.readFormHere config := Feed.readForm_of_ne hne
      by_cases hnesting : item.nesting ≤ config.maxDepth
      · obtain ⟨hresult, hback⟩ := hyields.result hnesting ⟨operator?_head hkeeps rest, hitem⟩
        rw [hread, hresult] at hform
        rw [Feed.readForms_eq, hform,
          and_iff_right (⟨hvalid, hnesting⟩ : item.Admitted config)]
        have hall := ih hseparated hrest hback (item.form config.operators :: done)
        rw [List.reverse_cons, List.append_assoc, List.singleton_append] at hall
        exact hall
      · obtain ⟨position, hresult⟩ := hyields.error hnesting
        rw [hread, hresult] at hform
        refine ⟨fun hadmitted => absurd hadmitted.1.nesting hnesting, fun _ => ⟨position, ?_⟩⟩
        rw [Feed.readForms_eq, hform]

/-- A text whose tokens are those of a program that is admitted, and whose forms are separated, is
read as the forms of the program. -/
theorem ofStringUnder_of_separated (hkeeps : config.operators.KeepsPunctuation) {program : Program}
    (hseparated : program.Separated) (hadmitted : program.Admitted config) {text : String}
    (htokens : Token.ofString text = program.tokens) :
    Form.ofStringUnder config text = .ok (program.forms config.operators) := by
  have hdelivers := Feed.delivers_ofString text
  rw [htokens] at hdelivers
  have hvalid := fun item hmem => (hadmitted item hmem).valid
  exact (readForms_of_separated hkeeps hseparated hvalid hdelivers []).1 hadmitted

/-- A text whose tokens are those of one form that is admitted is read as this form. -/
theorem ofStringUnder_of_item (hkeeps : config.operators.KeepsPunctuation) {item : Item}
    (hadmitted : item.Admitted config) {text : String}
    (htokens : Token.ofString text = item.tokens) :
    Form.ofStringUnder config text = .ok [item.form config.operators] := by
  have hprogram : tokens [.item item] = item.tokens := by
    rw [tokens_item]
    exact List.append_nil _
  have hseparated : Separated [.item item] := ⟨fun _ => Token.noConfusion, trivial⟩
  exact ofStringUnder_of_separated hkeeps hseparated (admitted_item.2 ⟨hadmitted, admitted_nil⟩)
    (htokens.trans hprogram.symm)

/-- A program that begins with a parenthesis begins with a group. -/
theorem exists_group {program : Program}
    (h : program.tokens.headD .endOfInput = .character '(') :
    ∃ inner tail rest, program = .item (.expression (.chain (.group inner) tail)) :: rest := by
  cases program with
  | nil => cases h
  | cons entry rest =>
    cases entry with
    | separator => cases h
    | item item =>
      cases item with
      | external => cases h
      | definition => cases h
      | expression body =>
        obtain ⟨first, tail⟩ := body
        cases first with
        | number => cases h
        | name => cases h
        | call => cases h
        | group inner => exact ⟨inner, tail, rest, rfl⟩

end Program

/-- An expression that ends with a bare name, and one that begins with a group, make one expression
with a call. -/
theorem Phrase.exists_call (first : Primary) (front : Tail)
    (hbare : (Phrase.chain first front).bare = true) (inner : Phrase) (tail : Tail) :
    ∃ merged : Phrase,
      merged.tokens =
        (Phrase.chain first front).tokens ++ (Phrase.chain (.group inner) tail).tokens ∧
      (∀ table, (Phrase.chain first front).Valid table →
        (Phrase.chain (.group inner) tail).Valid table → merged.Valid table) ∧
      merged.nesting =
        max (Phrase.chain first front).nesting (Phrase.chain (.group inner) tail).nesting ∧
      merged.bare = (Phrase.chain (.group inner) tail).bare := by
  match front with
  | .done =>
    cases first with
    | name word =>
      refine ⟨.chain (.call word (.more inner .none)) tail, ?_, ?_, ?_, rfl⟩
      · simp only [Phrase.tokens, Primary.tokens, Tail.tokens, Arguments.tokens,
          Arguments.furtherTokens, List.append_nil, List.cons_append, List.nil_append]
      · rintro table _ ⟨hinner, htail⟩
        exact ⟨⟨hinner, trivial⟩, htail⟩
      · simp only [Phrase.nesting, Primary.nesting, Tail.nesting, Arguments.nesting]
        omega
    | number => cases hbare
    | call => cases hbare
    | group => cases hbare
  | .more operator operand rest =>
    obtain ⟨⟨operand', rest'⟩, htokens, hvalid, hnesting, hbare'⟩ :=
      exists_call operand rest hbare inner tail
    refine ⟨.chain first (.more operator operand' rest'), ?_, ?_, ?_, hbare'⟩
    · simp only [Phrase.tokens, Tail.tokens, List.cons_append, List.append_assoc] at htokens ⊢
      rw [htokens]
    · rintro table ⟨hfirst, hoperator, hoperand, hrest⟩ hback
      exact ⟨hfirst, hoperator, hvalid table ⟨hoperand, hrest⟩ hback⟩
    · simp only [Phrase.nesting, Tail.nesting] at hnesting ⊢
      omega

/-- A form that ends with a bare name, and an expression that begins with a group, make one form
with a call. -/
theorem Item.exists_call {item : Item} (hbare : item.bare = true) (inner : Phrase) (tail : Tail) :
    ∃ merged : Item,
      merged.tokens = item.tokens ++ (Phrase.chain (.group inner) tail).tokens ∧
      (∀ table, item.Valid table → (Phrase.chain (.group inner) tail).Valid table →
        merged.Valid table) ∧
      merged.nesting = max item.nesting (Phrase.chain (.group inner) tail).nesting ∧
      merged.bare = (Phrase.chain (.group inner) tail).bare := by
  cases item with
  | external prototype => cases hbare
  | definition prototype body =>
    obtain ⟨first, front⟩ := body
    obtain ⟨merged, htokens, hvalid, hnesting, hmerged⟩ :=
      Phrase.exists_call first front hbare inner tail
    refine ⟨.definition prototype merged, ?_, hvalid, hnesting, hmerged⟩
    rw [tokens, tokens, htokens, List.cons_append, List.append_assoc]
  | expression body =>
    obtain ⟨first, front⟩ := body
    obtain ⟨merged, htokens, hvalid, hnesting, hmerged⟩ :=
      Phrase.exists_call first front hbare inner tail
    exact ⟨.expression merged, htokens, hvalid, hnesting, hmerged⟩

namespace Program

variable {config : Config}

/-- Every program can be written so that its forms are separated: a name and a group that follow
each other are a call then. -/
theorem exists_separated {program : Program} (h : program.Admitted config) :
    ∃ program' : Program, program'.tokens = program.tokens ∧ program'.Admitted config ∧
      program'.Separated := by
  induction program with
  | nil => exact ⟨[], rfl, h, trivial⟩
  | cons entry rest ih =>
    cases entry with
    | separator =>
      obtain ⟨rest', htokens, hadmitted, hseparated⟩ := ih (admitted_separator.1 h)
      refine ⟨.separator :: rest', ?_, admitted_separator.2 hadmitted, hseparated⟩
      rw [tokens_separator, tokens_separator, htokens]
    | item item =>
      obtain ⟨hitem, hrest⟩ := admitted_item.1 h
      obtain ⟨rest', htokens, hadmitted, hseparated⟩ := ih hrest
      by_cases hcall : item.bare = true ∧ (tokens rest').headD .endOfInput = .character '('
      · obtain ⟨hbare, hopening⟩ := hcall
        obtain ⟨inner, tail, rest'', rfl⟩ := exists_group hopening
        obtain ⟨merged, hmerged, hvalid, hnesting, hbare'⟩ := item.exists_call hbare inner tail
        obtain ⟨hgroup, hadmitted⟩ := admitted_item.1 hadmitted
        have hmerged' : merged.Admitted config := by
          refine ⟨hvalid _ hitem.valid hgroup.valid, ?_⟩
          rw [hnesting]
          exact Nat.max_le.2 ⟨hitem.nesting, hgroup.nesting⟩
        refine ⟨.item merged :: rest'', ?_, admitted_item.2 ⟨hmerged', hadmitted⟩, ?_,
          hseparated.2⟩
        · rw [tokens_item] at htokens
          rw [tokens_item, tokens_item, hmerged, ← htokens, List.append_assoc]
          rfl
        · rw [hbare']
          exact hseparated.1
      · refine ⟨.item item :: rest', ?_, admitted_item.2 ⟨hitem, hadmitted⟩, ?_, hseparated⟩
        · rw [tokens_item, tokens_item, htokens]
        · exact fun hbare hopening => hcall ⟨hbare, hopening⟩

/-- A program in which no form can be longer is separated. -/
theorem separated_of_greedy {program : Program} (hgreedy : program.Greedy config.operators)
    (hadmitted : program.Admitted config) : program.Separated := by
  induction program with
  | nil => trivial
  | cons entry rest ih =>
    cases entry with
    | separator => exact ih hgreedy (admitted_separator.1 hadmitted)
    | item item =>
      obtain ⟨hitem, hrest⟩ := admitted_item.1 hadmitted
      refine ⟨fun hbare hopening => ?_, ih hgreedy.2 hrest⟩
      obtain ⟨inner, tail, rest', rfl⟩ := exists_group hopening
      obtain ⟨merged, hmerged, hvalid, _, _⟩ := item.exists_call hbare inner tail
      obtain ⟨hgroup, _⟩ := admitted_item.1 hrest
      have hprefix : merged.tokens <+: item.tokens ++ tokens
          (.item (.expression (.chain (.group inner) tail)) :: rest') := by
        rw [hmerged, tokens_item, ← List.append_assoc]
        exact List.prefix_append _ _
      have hle := hgreedy.1 merged (hvalid _ hitem.valid hgroup.valid) hprefix
      rw [hmerged, List.length_append] at hle
      have hpos := List.length_pos_iff.2 (Phrase.tokens_ne_nil (.chain (.group inner) tail))
      omega

/-- The form that has been read takes as many tokens as any form can. -/
theorem longest_of_readFormHere (hkeeps : config.operators.KeepsPunctuation) {σ : Type}
    [CharStream σ] {feed : Feed σ} {item : Item} {back : List Token}
    (h : feed.Delivers (item.tokens ++ back)) {form : Form}
    (hresult : (feed.readFormHere config).result = some (.ok form))
    (hback : (feed.readFormHere config).feed.Delivers back) :
    Longest config.operators item back := by
  rintro other hvalid ⟨rest, hrest⟩
  rw [← hrest] at h
  obtain ⟨outcome, hread, hyields⟩ := other.yields hkeeps hvalid h
  rw [hread] at hresult hback
  have hok : outcome.result = .ok form := Option.some.inj hresult
  by_cases hfits : other.nesting ≤ config.maxDepth
  · obtain ⟨back', hback', hsuffix⟩ := hyields.passes hfits
    obtain rfl := hback.unique hback'
    have hlength := congrArg List.length hrest
    rw [List.length_append, List.length_append] at hlength
    have hle := hsuffix.length_le
    omega
  · obtain ⟨position, herror⟩ := hyields.error hfits
    rw [hok] at herror
    cases herror

/-- What is read is a program in which no form can be longer. -/
theorem exists_greedy (hkeeps : config.operators.KeepsPunctuation) {σ : Type} [CharStream σ]
    {feed : Feed σ} {tokens : List Token} (h : feed.Delivers tokens) {done forms : List Form}
    (hread : feed.readForms config done = .ok forms) :
    ∃ program : Program, program.Greedy config.operators ∧ program.Admitted config ∧
      program.tokens = tokens ∧ done.reverse ++ program.forms config.operators = forms := by
  -- The induction is on the number of tokens: a semicolon is one, and a form has at least one.
  induction hlength : tokens.length using Nat.strong_induction_on generalizing tokens feed done with
  | _ length ih =>
    by_cases hseparator : feed.lookahead.token = .character ';'
    · obtain ⟨rest, rfl⟩ := h.exists_cons hseparator Token.noConfusion
      rw [Feed.readForms_of_separator hseparator] at hread
      obtain ⟨program, hgreedy, hadmitted, htokens, hforms⟩ :=
        ih rest.length (hlength ▸ Nat.lt_succ_self _) h.advance hread rfl
      refine ⟨.separator :: program, hgreedy, admitted_separator.2 hadmitted, ?_, hforms⟩
      rw [tokens_separator, htokens]
    · have hform : feed.readForm config = feed.readFormHere config :=
        Feed.readForm_of_ne hseparator
      rw [Feed.readForms_eq, hform] at hread
      cases hresult : (feed.readFormHere config).result with
      | none =>
        rw [hresult] at hread
        cases hread
        have hend : feed.lookahead.token = .endOfInput := by
          unfold Feed.readFormHere at hresult
          split at hresult
          · assumption
          · cases hresult
          · cases hresult
          · cases hresult
        rw [h.eq_nil hend]
        exact ⟨[], trivial, admitted_nil, rfl, List.append_nil _⟩
      | some result =>
        cases result with
        | error error =>
          rw [hresult] at hread
          cases hread
        | ok form =>
          rw [hresult] at hread
          obtain ⟨item, back, rfl, hback, hitem, rfl⟩ := delivers_of_readFormHere h hresult
          have hlt : back.length < length := by
            obtain ⟨token, others, htokens, _⟩ := item.exists_tokens
            rw [htokens, List.length_append, List.length_cons] at hlength
            omega
          obtain ⟨program, hgreedy, hadmitted, rfl, hforms⟩ := ih back.length hlt hback hread rfl
          refine ⟨.item item :: program, ⟨?_, hgreedy⟩, admitted_item.2 ⟨hitem, hadmitted⟩,
            tokens_item _ _, ?_⟩
          · exact longest_of_readFormHere hkeeps h hresult hback
          · rw [← hforms, List.reverse_cons, List.append_assoc, List.singleton_append]
            rfl

/-- A text is read without an error if and only if its tokens can be split into semicolons and forms
whose expressions do not nest too deep, in whatever way; and the result is the forms of the split in
which every form is as long as it can be. -/
theorem ofStringUnder_eq_ok_iff (hregistrable : config.Registrable) (text : String) :
    ((∃ forms, Form.ofStringUnder config text = .ok forms) ↔
      ∃ program : Program, program.Admitted config ∧ program.tokens = Token.ofString text) ∧
    ∀ forms, Form.ofStringUnder config text = .ok forms ↔
      ∃ program : Program, program.Greedy config.operators ∧ program.Admitted config ∧
        program.tokens = Token.ofString text ∧ program.forms config.operators = forms := by
  have hkeeps := hregistrable.keepsPunctuation
  have hdelivers := Feed.delivers_ofString text
  have hread : ∀ program : Program, program.Separated → program.Admitted config →
      program.tokens = Token.ofString text →
      Form.ofStringUnder config text = .ok (program.forms config.operators) := by
    intro program hseparated hadmitted htokens
    rw [← htokens] at hdelivers
    have hvalid := fun item hmem => (hadmitted item hmem).valid
    exact (readForms_of_separated hkeeps hseparated hvalid hdelivers []).1 hadmitted
  refine ⟨⟨?_, ?_⟩, fun forms => ⟨fun hforms => ?_, ?_⟩⟩
  · rintro ⟨forms, hforms⟩
    obtain ⟨program, _, hadmitted, htokens, _⟩ := exists_greedy hkeeps hdelivers hforms
    exact ⟨program, hadmitted, htokens⟩
  · rintro ⟨program, hadmitted, htokens⟩
    obtain ⟨program', htokens', hadmitted', hseparated⟩ := exists_separated hadmitted
    exact ⟨_, hread program' hseparated hadmitted' (htokens'.trans htokens)⟩
  · exact exists_greedy hkeeps hdelivers hforms
  · rintro ⟨program, hgreedy, hadmitted, htokens, rfl⟩
    exact hread program (separated_of_greedy hgreedy hadmitted) hadmitted htokens

/-- A name and a group that are forms of their own are read as well, if only as a call. -/
theorem ofStringUnder_standard_name_group :
    Config.standard.Registrable ∧
      ∃ forms, Form.ofStringUnder .standard "def f(a b) x; x\n(y) z" = .ok forms := by
  let name (word : String) : Phrase := .chain (.name word) .done
  let program : Program :=
    [.item (.definition ⟨"f", ["a", "b"]⟩ (name "x")), .separator, .item (.expression (name "x")),
      .item (.expression (.chain (.group (name "y")) .done)), .item (.expression (name "z"))]
  have hadmitted : program.Admitted .standard := by
    intro item hmem
    simp only [program, List.mem_cons, Entry.item.injEq, reduceCtorEq, List.not_mem_nil, or_false,
      false_or] at hmem
    rcases hmem with rfl | rfl | rfl | rfl
    · exact ⟨⟨trivial, trivial⟩, by decide⟩
    · exact ⟨⟨trivial, trivial⟩, by decide⟩
    · exact ⟨⟨⟨trivial, trivial⟩, trivial⟩, by decide⟩
    · exact ⟨⟨trivial, trivial⟩, by decide⟩
  have htokens : program.tokens = Token.ofString "def f(a b) x; x\n(y) z" := by cbv
  exact ⟨Config.registrable_standard,
    (ofStringUnder_eq_ok_iff Config.registrable_standard _).1.2 ⟨program, hadmitted, htokens⟩⟩

end Program

end Grammar

end Kaleidoscope
