import Kaleidoscope.Proofs.Grouping
import Kaleidoscope.Proofs.Readings
import Kaleidoscope.Proofs.Grammar.Program
import Mathlib.Data.List.Forall2

/-!
# Tables in the same order

The readers compare precedences with one another and never look at them otherwise. So two tables
that have the same operators among the characters of an input, and have these in the same order, are
as good as one another: state by state the readers hold the same operands and operators, and only
the integers beside the operators differ. The main statement says that everything that is read under
the one table is read under the other one.
-/

namespace Kaleidoscope

/-- Whether two tables have the same operators among some characters, and have them in the same
order. -/
structure OperatorTable.OrderedAlike (occurs : Char → Prop) (table table' : OperatorTable) :
    Prop where
  /-- The same characters are operators. -/
  operator_iff : ∀ c, occurs c → ((table.precedence? c).isSome ↔ (table'.precedence? c).isSome)
  /-- Of any two operators, the same one binds less tightly. -/
  lt_iff : ∀ c d, occurs c → occurs d → ∀ p q p' q',
    table.precedence? c = some p → table.precedence? d = some q →
      table'.precedence? c = some p' → table'.precedence? d = some q' → (p < q ↔ p' < q')

/-- Whether two configurations have the same depth limit, and tables in the same order. -/
structure Config.Alike (occurs : Char → Prop) (config config' : Config) : Prop where
  /-- The tables are in the same order. -/
  operators : config.operators.OrderedAlike occurs config'.operators
  /-- The limit is the same. -/
  maxDepth : config'.maxDepth = config.maxDepth

/-- Whether two integers are the precedences of an operator that occurs, under one configuration and
under another one. -/
structure Config.Ranks (occurs : Char → Prop) (config config' : Config) (operator : Char)
    (precedence precedence' : Int32) : Prop where
  /-- The operator occurs. -/
  occurs : occurs operator
  /-- The first one is its precedence under the one configuration. -/
  left : config.operators.precedence? operator = some precedence
  /-- The second one is its precedence under the other one. -/
  right : config'.operators.precedence? operator = some precedence'

/-- Whether pairs of integers that stand beside operators are in the same order. -/
structure SameOrder (ranks : Char → Int32 → Int32 → Prop) : Prop where
  /-- They compare alike. -/
  lt_iff : ∀ {c d : Char} {p q p' q' : Int32}, ranks c p p' → ranks d q q' → (p < q ↔ p' < q')
  /-- They are not negative. -/
  nonneg : ∀ {c : Char} {p p' : Int32}, ranks c p p' → 0 ≤ p ∧ 0 ≤ p'

/-- The precedences under tables in the same order are pairs of integers in the same order. -/
theorem Config.Alike.sameOrder {occurs : Char → Prop} {config config' : Config}
    (h : config.Alike occurs config') : SameOrder (Ranks occurs config config') where
  lt_iff hc hd :=
    h.operators.lt_iff _ _ hc.occurs hd.occurs _ _ _ _ hc.left hd.left hc.right hd.right
  nonneg hc := ⟨Int32.le_of_lt (OperatorTable.precedence?_pos hc.left),
    Int32.le_of_lt (OperatorTable.precedence?_pos hc.right)⟩

/-- A token that occurs is no operator under either configuration, or the same one under both. -/
theorem Config.Alike.operator?_cases {occurs : Char → Prop} {config config' : Config}
    (h : config.Alike occurs config') {token : Token}
    (hoccurs : ∀ c, token = .character c → occurs c) :
    (config.operator? token = none ∧ config'.operator? token = none) ∨
      ∃ operator precedence precedence', config.operator? token = some (operator, precedence) ∧
        config'.operator? token = some (operator, precedence') ∧
        Ranks occurs config config' operator precedence precedence' := by
  cases token with
  | character c =>
    have hiff := h.operators.operator_iff c (hoccurs c rfl)
    cases hleft : config.operators.precedence? c with
    | none =>
      rw [hleft] at hiff
      have hright : config'.operators.precedence? c = none :=
        Option.not_isSome_iff_eq_none.1 fun hsome => nomatch hiff.2 hsome
      exact .inl ⟨by rw [operator?, hleft]; rfl, by rw [operator?, hright]; rfl⟩
    | some precedence =>
      rw [hleft] at hiff
      obtain ⟨precedence', hright⟩ := Option.isSome_iff_exists.1 (hiff.1 rfl)
      exact .inr ⟨c, precedence, precedence', by rw [operator?, hleft]; rfl,
        by rw [operator?, hright]; rfl, hoccurs c rfl, hleft, hright⟩
  | _ => exact .inl ⟨rfl, rfl⟩

section Chains

variable {ranks : Char → Int32 → Int32 → Prop}

namespace Link

/-- Whether two links differ in their precedences only. -/
inductive Alike (ranks : Char → Int32 → Int32 → Prop) : Link → Link → Prop where
  /-- The precedences are of the same operator. -/
  | mk {operator : Char} {precedence precedence' : Int32} (operand : Expr)
    (h : ranks operator precedence precedence') :
    Alike ranks ⟨operator, precedence, operand⟩ ⟨operator, precedence', operand⟩

/-- Alike links compare alike. -/
theorem Alike.lt_iff (horder : SameOrder ranks) {link link' other other' : Link}
    (h : Alike ranks link link') (hother : Alike ranks other other') :
    link.precedence < other.precedence ↔ link'.precedence < other'.precedence := by
  cases h with
  | mk operand h =>
    cases hother with
    | mk operand hother => exact horder.lt_iff h hother

/-- The precedences of alike chains are not negative. -/
theorem nonneg_of_alike (horder : SameOrder ranks) {links links' : List Link}
    (h : List.Forall₂ (Alike ranks) links links') :
    (∀ link ∈ links, 0 ≤ link.precedence) ∧ ∀ link ∈ links', 0 ≤ link.precedence := by
  induction h with
  | nil => exact ⟨by simp, by simp⟩
  | cons hlink _ ih =>
    cases hlink with
    | mk operand hlink =>
      obtain ⟨hleft, hright⟩ := horder.nonneg hlink
      exact ⟨List.forall_mem_cons.2 ⟨hleft, ih.1⟩, List.forall_mem_cons.2 ⟨hright, ih.2⟩⟩

/-- Whether two chains that are cut at a link are alike. -/
structure Split.Alike (ranks : Char → Int32 → Int32 → Prop) (split split' : Split) : Prop where
  /-- The links in front of the cut are. -/
  before : List.Forall₂ (Link.Alike ranks) split.before split'.before
  /-- The link at the cut is. -/
  root : Link.Alike ranks split.root split'.root
  /-- The links behind it are. -/
  after : List.Forall₂ (Link.Alike ranks) split.after split'.after

/-- Alike chains are cut at the same place. -/
theorem loosest?_alike (horder : SameOrder ranks) {links links' : List Link}
    (h : List.Forall₂ (Alike ranks) links links') {split : Split}
    (hsplit : loosest? links = some split) :
    ∃ split', loosest? links' = some split' ∧ split.Alike ranks split' := by
  induction h generalizing split with
  | nil => cases hsplit
  | @cons link link' links links' hlink hlinks ih =>
    rw [loosest?] at hsplit ⊢
    cases hinner : loosest? links with
    | none =>
      obtain rfl := loosest?_eq_none hinner
      cases hlinks
      cases hsplit
      exact ⟨_, rfl, .nil, hlink, .nil⟩
    | some inner =>
      obtain ⟨inner', hinner', halike⟩ := ih hinner
      have hiff := hlink.lt_iff horder halike.root
      rw [hinner] at hsplit
      rw [hinner']
      dsimp only at hsplit ⊢
      by_cases hlt : link.precedence < inner.root.precedence
      · rw [if_pos hlt] at hsplit
        rw [if_pos (hiff.1 hlt)]
        cases hsplit
        exact ⟨_, rfl, .nil, hlink, hlinks⟩
      · rw [if_neg hlt] at hsplit
        rw [if_neg (mt hiff.2 hlt)]
        cases hsplit
        exact ⟨_, rfl, .cons hlink halike.before, halike.root, halike.after⟩

/-- Alike chains have the same tree. -/
theorem grouping_alike (horder : SameOrder ranks) (first : Expr) {links links' : List Link}
    (h : List.Forall₂ (Alike ranks) links links') :
    grouping first links' = grouping first links := by
  fun_induction grouping first links generalizing links' with
  | case1 first links hnone =>
    obtain rfl := loosest?_eq_none hnone
    cases h
    exact grouping_nil first
  | case2 first links split hsplit ihbefore ihafter =>
    obtain ⟨split', hsplit', halike⟩ := loosest?_alike horder h hsplit
    obtain ⟨hlinks, hbefore, hafter⟩ := loosest?_spec hsplit'
    rw [hlinks, grouping_append hbefore hafter, ihbefore halike.before]
    obtain ⟨before, root, after⟩ := split
    obtain ⟨before', root', after'⟩ := split'
    cases halike.root with
    | mk operand hroot => rw [ihafter halike.after]

end Link

namespace ExprReader

/-- Whether two pending operands differ in their precedences only. -/
inductive Pending.Alike (ranks : Char → Int32 → Int32 → Prop) : Pending → Pending → Prop where
  /-- The precedences are of the same operator. -/
  | mk {operator : Char} {precedence precedence' : Int32} (operand : Expr)
    (h : ranks operator precedence precedence') :
    Alike ranks ⟨operand, operator, precedence⟩ ⟨operand, operator, precedence'⟩

/-- Whether two frames differ in precedences only. -/
inductive Frame.Alike (ranks : Char → Int32 → Int32 → Prop) : Frame → Frame → Prop where
  /-- Two groups. -/
  | group {before before' : List Pending} (h : List.Forall₂ (Pending.Alike ranks) before before') :
    Alike ranks (.group before) (.group before')
  /-- Two arguments. -/
  | argument {before before' : List Pending}
    (h : List.Forall₂ (Pending.Alike ranks) before before') (callee : String) (done : List Expr) :
    Alike ranks (.argument before callee done) (.argument before' callee done)

/-- Whether two phases differ in precedences only. -/
inductive Phase.Alike (ranks : Char → Int32 → Int32 → Prop) : Phase → Phase → Prop where
  /-- Nothing has begun. -/
  | start : Alike ranks .start .start
  /-- Both wait for an operand. -/
  | operand {before before' : List Pending}
    (h : List.Forall₂ (Pending.Alike ranks) before before') :
    Alike ranks (.operand before) (.operand before')
  /-- Both have come to a name. -/
  | name {before before' : List Pending} (h : List.Forall₂ (Pending.Alike ranks) before before')
    (word : String) : Alike ranks (.name before word) (.name before' word)
  /-- Both have come to the parenthesis of a call. -/
  | opened {before before' : List Pending} (h : List.Forall₂ (Pending.Alike ranks) before before')
    (callee : String) : Alike ranks (.opened before callee) (.opened before' callee)
  /-- Both have come to the end of an operand. -/
  | operator {before before' : List Pending}
    (h : List.Forall₂ (Pending.Alike ranks) before before') (last : Expr) :
    Alike ranks (.operator before last) (.operator before' last)

/-- Whether two states differ in precedences only. -/
inductive State.Alike (ranks : Char → Int32 → Int32 → Prop) : State → State → Prop where
  /-- The parts of the states do. -/
  | mk {phase phase' : Phase} {stack stack' : List Frame} (hphase : Phase.Alike ranks phase phase')
    (hstack : List.Forall₂ (Frame.Alike ranks) stack stack') (depth : Nat) :
    Alike ranks ⟨phase, stack, depth⟩ ⟨phase', stack', depth⟩

/-- Whether two moves differ in precedences only. -/
inductive MovesAlike (ranks : Char → Int32 → Int32 → Prop) :
    Move State Result → Move State Result → Prop where
  /-- Both go on. -/
  | shift {next next' : State} (h : State.Alike ranks next next') :
    MovesAlike ranks (.shift next) (.shift next')
  /-- Both stop with the same result. -/
  | stop (result : Result) : MovesAlike ranks (.stop result) (.stop result)

/-- Alike expressions are finished to the same tree. -/
theorem complete_alike (horder : SameOrder ranks) {before before' : List Pending}
    (h : List.Forall₂ (Pending.Alike ranks) before before') (last : Expr) {links links' : List Link}
    (hlinks : List.Forall₂ (Link.Alike ranks) links links') :
    complete before' last links' = complete before last links := by
  induction h generalizing last links links' with
  | nil =>
    obtain ⟨hleft, hright⟩ := Link.nonneg_of_alike horder hlinks
    rw [complete, complete, Expr.ofChain_eq_grouping hleft, Expr.ofChain_eq_grouping hright]
    exact Link.grouping_alike horder last hlinks
  | cons hpending _ ih =>
    cases hpending with
    | mk operand hranks => exact ih operand (.cons (.mk last hranks) hlinks)

variable {before before' : List Pending} {stack stack' : List Frame} {depth : Nat} {lexeme : Lexeme}

/-- Where an operand is due, alike states move alike. -/
theorem atOperand_alike (hbefore : List.Forall₂ (Pending.Alike ranks) before before')
    (hstack : List.Forall₂ (Frame.Alike ranks) stack stack') :
    MovesAlike ranks (atOperand before stack depth lexeme)
      (atOperand before' stack' depth lexeme) := by
  unfold atOperand
  split
  · exact .shift (.mk (.name hbefore _) hstack depth)
  · exact .shift (.mk (.operator hbefore _) hstack depth)
  · exact .shift (.mk .start (.cons (.group hbefore) hstack) depth)
  · exact .stop _

/-- On stacks that are alike the reader moves alike behind a finished expression. -/
theorem atEnd_alike (expr : Expr) (hstack : List.Forall₂ (Frame.Alike ranks) stack stack') :
    MovesAlike ranks (atEnd expr stack depth lexeme) (atEnd expr stack' depth lexeme) := by
  cases hstack with
  | nil => exact .stop _
  | cons hframe hstack =>
    cases hframe with
    | group hbefore =>
      simp only [atEnd]
      split
      · exact .shift (.mk (.operator hbefore expr) hstack depth)
      · exact .stop _
    | argument hbefore callee done =>
      simp only [atEnd]
      split
      · exact .shift (.mk (.operator hbefore _) hstack depth)
      · exact .shift (.mk .start (.cons (.argument hbefore callee _) hstack) depth)
      · exact .stop _

end ExprReader

end Chains

namespace ExprReader

variable {occurs : Char → Prop} {config config' : Config} {before before' : List Pending}
  {stack stack' : List Frame} {depth : Nat} {lexeme : Lexeme}

/-- On stacks that are alike the reader moves alike where an expression begins. -/
theorem atStart_alike (h : config.Alike occurs config')
    (hstack : List.Forall₂ (Frame.Alike (Config.Ranks occurs config config')) stack stack') :
    MovesAlike (Config.Ranks occurs config config') (atStart config stack depth lexeme)
      (atStart config' stack' depth lexeme) := by
  unfold atStart
  rw [h.maxDepth]
  split
  · exact .stop _
  · exact atOperand_alike .nil hstack

/-- On stacks that are alike the reader moves alike behind an operand. -/
theorem atOperator_alike (h : config.Alike occurs config')
    (hbefore : List.Forall₂ (Pending.Alike (Config.Ranks occurs config config')) before before')
    (last : Expr)
    (hstack : List.Forall₂ (Frame.Alike (Config.Ranks occurs config config')) stack stack')
    (hoccurs : ∀ c, lexeme.token = .character c → occurs c) :
    MovesAlike (Config.Ranks occurs config config')
      (atOperator config before last stack depth lexeme)
      (atOperator config' before' last stack' depth lexeme) := by
  unfold atOperator
  rcases h.operator?_cases hoccurs with ⟨hleft, hright⟩ | ⟨_, _, _, hleft, hright, hranks⟩
  · rw [hleft, hright]
    dsimp only
    rw [complete_alike h.sameOrder hbefore last .nil]
    exact atEnd_alike _ hstack
  · rw [hleft, hright]
    exact .shift (.mk (.operand (.cons (.mk last hranks) hbefore)) hstack depth)

/-- Alike states move alike on every token that occurs. -/
theorem move_alike (h : config.Alike occurs config') {state state' : State}
    (hstate : State.Alike (Config.Ranks occurs config config') state state')
    (hoccurs : ∀ c, lexeme.token = .character c → occurs c) :
    MovesAlike (Config.Ranks occurs config config') ((machine config).move state lexeme)
      ((machine config').move state' lexeme) := by
  cases hstate with
  | mk hphase hstack depth =>
    cases hphase with
    | start => exact atStart_alike h hstack
    | operand hbefore => exact atOperand_alike hbefore hstack
    | name hbefore word =>
      change MovesAlike _ (atName config _ word _ depth lexeme)
        (atName config' _ word _ depth lexeme)
      unfold atName
      split
      · exact .shift (.mk (.opened hbefore word) hstack depth)
      · exact atOperator_alike h hbefore _ hstack hoccurs
    | opened hbefore callee =>
      change MovesAlike _ (atOpened config _ callee _ depth lexeme)
        (atOpened config' _ callee _ depth lexeme)
      unfold atOpened
      split
      · exact .shift (.mk (.operator hbefore _) hstack depth)
      · exact atStart_alike h (.cons (.argument hbefore callee []) hstack)
    | operator hbefore last => exact atOperator_alike h hbefore last hstack hoccurs

end ExprReader

/-- Whether a character is one of some tokens. -/
def Lexeme.Mention (lexemes : List Lexeme) (c : Char) : Prop :=
  .character c ∈ lexemes.map Lexeme.token

namespace Feed

variable {σ : Type} [CharStream σ] {config config' : Config} {lexemes : List Lexeme} {feed : Feed σ}

/-- Whether a character is one of the tokens in front of a reader. -/
def Mentions (feed : Feed σ) : Char → Prop := Lexeme.Mention feed.lexemes

/-- A character in front of which a reader stands is one of the tokens. -/
theorem Holds.mention (h : feed.Holds lexemes) {c : Char}
    (hlookahead : feed.lookahead.token = .character c) : Lexeme.Mention lexemes c := by
  have hne : feed.lookahead.token ≠ .endOfInput := by
    rw [hlookahead]
    exact Token.noConfusion
  have hmem : feed.lookahead ∈ lexemes := by
    apply h.suffix.subset
    rw [lexemes_of_ne hne]
    exact List.mem_cons_self
  rw [Lexeme.Mention, ← hlookahead]
  exact List.mem_map_of_mem hmem

/-- From alike states an expression is read alike. -/
theorem drive_alike (h : config.Alike (Lexeme.Mention lexemes) config') (hfeed : feed.Holds lexemes)
    {state state' : ExprReader.State}
    (hstate : ExprReader.State.Alike (Config.Ranks (Lexeme.Mention lexemes) config config')
      state state') :
    feed.drive (ExprReader.machine config') state' =
      feed.drive (ExprReader.machine config) state := by
  fun_induction drive (ExprReader.machine config) state feed generalizing state' with
  | case1 state feed next hmove ih =>
    have halike := ExprReader.move_alike h hstate fun c => hfeed.mention
    rw [hmove] at halike
    generalize hmove' : (ExprReader.machine config').move state' feed.lookahead = move' at halike
    cases halike with
    | shift hnext =>
      rw [drive_of_shift hmove']
      exact ih ((kept_holds lexemes).advance hfeed) hnext
  | case2 state feed result hmove =>
    have halike := ExprReader.move_alike h hstate fun c => hfeed.mention
    rw [hmove] at halike
    generalize hmove' : (ExprReader.machine config').move state' feed.lookahead = move' at halike
    cases halike with
    | stop => exact drive_of_stop hmove'

/-- An expression is read alike under tables in the same order. -/
theorem readExpr_alike (h : config.Alike (Lexeme.Mention lexemes) config')
    (hfeed : feed.Holds lexemes) : feed.readExpr config' = feed.readExpr config :=
  drive_alike h hfeed (.mk .start .nil 0)

/-- Every construct is read the same under tables that are alike. -/
theorem read_alike (h : config.Alike (Lexeme.Mention lexemes) config') (hfeed : feed.Holds lexemes)
    (construct : Construct) : feed.read config' construct = feed.read config construct :=
  read_congr fun _ hstart => readExpr_alike h ((kept_holds lexemes).body? hfeed hstart)

/-- The forms of a run are the same under tables that are alike. -/
theorem runFrom_alike (h : config.Alike (Lexeme.Mention lexemes) config')
    (hfeed : feed.Holds lexemes) (summary : Summary) (done : List (Except SyntaxError Form)) :
    feed.runFrom config' summary done = feed.runFrom config summary done := by
  fun_induction runFrom config summary done feed with
  | case1 summary done feed read hresult =>
    have hread : feed.readForm config' = ⟨none, read.feed⟩ := by
      rw [← hresult]
      exact read_alike h hfeed .form
    rw [runFrom_eq, hread]
  | case2 summary done feed read form hresult ih =>
    have hread : feed.readForm config' = ⟨some (.ok form), read.feed⟩ := by
      rw [← hresult]
      exact read_alike h hfeed .form
    rw [runFrom_eq, hread]
    have hkept : Kept (@Holds σ _ lexemes) := kept_holds lexemes
    exact ih (hkept.report Level.noConfusion (hkept.readForm hfeed))
  | case3 summary done feed read error hresult ih =>
    have hread : feed.readForm config' = ⟨some (.error error), read.feed⟩ := by
      rw [← hresult]
      exact read_alike h hfeed .form
    rw [runFrom_eq, hread]
    have hkept : Kept (@Holds σ _ lexemes) := kept_holds lexemes
    exact ih (hkept.advance (hkept.report Level.noConfusion (hkept.readForm hfeed)))

/-- Forms that are read strictly are the same under tables that are alike. -/
theorem readForms_alike (h : config.Alike (Lexeme.Mention lexemes) config')
    (hfeed : feed.Holds lexemes) (done : List Form) :
    feed.readForms config' done = feed.readForms config done := by
  fun_induction readForms config done feed with
  | case1 done feed read hresult =>
    have hread : feed.readForm config' = read := read_alike h hfeed .form
    rw [readForms_eq, hread, hresult]
  | case2 done feed read form hresult ih =>
    have hread : feed.readForm config' = read := read_alike h hfeed .form
    rw [readForms_eq, hread, hresult]
    exact ih ((kept_holds lexemes).readForm hfeed)
  | case3 done feed read error hresult =>
    have hread : feed.readForm config' = read := read_alike h hfeed .form
    rw [readForms_eq, hread, hresult]

end Feed

namespace OperatorTable

variable {occurs : Char → Prop} {table table' : OperatorTable}

/-- Tables with the same entries for all characters that occur are in the same order. -/
theorem orderedAlike_of_eq (h : ∀ c, occurs c → table'.get? c = table.get? c) :
    table.OrderedAlike occurs table' := by
  have hsame : ∀ c, occurs c → table'.precedence? c = table.precedence? c := by
    intro c hc
    rw [precedence?, precedence?, h c hc]
  refine ⟨fun c hc => by rw [hsame c hc], ?_⟩
  intro c d hc hd p q p' q' hp hq hp' hq'
  rw [hsame c hc, hp] at hp'
  rw [hsame d hd, hq] at hq'
  cases hp'
  cases hq'
  exact Iff.rfl

/-- The integer in the place of one when all levels are shifted; what makes no operator stays. -/
def shifted (distance precedence : Int32) : Int32 :=
  if 0 < precedence then precedence + distance else precedence

/-- A table with all levels shifted. -/
def shift (distance : Int32) (table : OperatorTable) : OperatorTable :=
  ⟨table.entries.map fun entry => (entry.1, shifted distance entry.2)⟩

/-- The entry of a character is shifted. -/
theorem get?_shift (distance : Int32) (table : OperatorTable) (c : Char) :
    (table.shift distance).get? c = (table.get? c).map (shifted distance) := by
  change (table.entries.map _).lookup c = (table.entries.lookup c).map _
  induction table.entries with
  | nil => rfl
  | cons entry entries ih =>
    rw [List.map_cons, List.lookup_cons, List.lookup_cons, ih]
    split <;> rfl

/-- The sum of two integers that is in range is no overflow. -/
theorem toInt_shifted {distance precedence : Int32} (hpos : 0 < precedence)
    (hlow : 0 < precedence.toInt + distance.toInt)
    (hhigh : precedence.toInt + distance.toInt ≤ 2147483647) :
    (shifted distance precedence).toInt = precedence.toInt + distance.toInt := by
  rw [shifted, if_pos hpos, Int32.toInt_add]
  exact Int.bmod_eq_of_le (by omega) (by omega)

/-- Where no level leaves the range of the operators, a table that is shifted is in the same
order. -/
theorem orderedAlike_shift {distance : Int32}
    (h : ∀ c, occurs c → ∀ precedence, table.precedence? c = some precedence →
      0 < precedence.toInt + distance.toInt ∧ precedence.toInt + distance.toInt ≤ 2147483647) :
    table.OrderedAlike occurs (table.shift distance) := by
  have hsome : ∀ c, occurs c → ∀ precedence, table.precedence? c = some precedence →
      (table.shift distance).precedence? c = some (shifted distance precedence) := by
    intro c hc precedence hprecedence
    obtain ⟨hlow, hhigh⟩ := h c hc precedence hprecedence
    have hpos := precedence?_pos hprecedence
    have hget : table.get? c = some precedence := (Option.filter_eq_some_iff.1 hprecedence).1
    rw [precedence?, get?_shift, hget]
    refine Option.filter_eq_some_iff.2 ⟨rfl, decide_eq_true ?_⟩
    rw [Int32.lt_iff_toInt_lt, toInt_shifted hpos hlow hhigh]
    exact hlow
  have hnone : ∀ c, table.precedence? c = none → (table.shift distance).precedence? c = none := by
    intro c hc
    rw [precedence?, get?_shift]
    cases hget : table.get? c with
    | none => rfl
    | some precedence =>
      rw [precedence?, hget] at hc
      have hle : ¬0 < precedence := by
        simpa using hc
      rw [Option.map_some, shifted, if_neg hle]
      exact hc
  refine ⟨fun c hc => ?_, ?_⟩
  · cases hprecedence : table.precedence? c with
    | none => rw [hnone c hprecedence]
    | some precedence =>
      rw [hsome c hc precedence hprecedence]
      exact iff_of_true rfl rfl
  · intro c d hc hd p q p' q' hp hq hp' hq'
    obtain ⟨hplow, hphigh⟩ := h c hc p hp
    obtain ⟨hqlow, hqhigh⟩ := h d hd q hq
    rw [hsome c hc p hp, Option.some.injEq] at hp'
    rw [hsome d hd q hq, Option.some.injEq] at hq'
    rw [← hp', ← hq', Int32.lt_iff_toInt_lt, Int32.lt_iff_toInt_lt,
      toInt_shifted (precedence?_pos hp) hplow hphigh,
      toInt_shifted (precedence?_pos hq) hqlow hqhigh]
    exact (Int.add_lt_add_iff_right _).symm

end OperatorTable

namespace Feed

variable {σ : Type} [CharStream σ]

/-- Whether everything that is read from a feed is read alike under two configurations, and leaves
the same tokens. -/
structure ReadsAlike (config config' : Config) (feed : Feed σ) : Prop where
  /-- Every construct is read alike. -/
  read : ∀ construct, feed.read config' construct = feed.read config construct
  /-- The forms of a run are read alike. -/
  run : feed.run config' = feed.run config
  /-- Forms that are read strictly are read alike. -/
  readForms : ∀ done, feed.readForms config' done = feed.readForms config done

/-- In every state that operations lead to, everything is read alike under two configurations with
the same depth limit whose tables have the same operators among the characters in front of the
reader, and have them in the same order. So it is when a character that is not in front of the
reader is registered as an operator or taken out of the table, and when all levels are shifted
within the range of the operators. -/
theorem readsAlike_of_alike (source : σ) (before : Config) (operations : List Session.Operation)
    (config : Config) :
    let feed := ((Session.start source before).performAll operations).feed
    (∀ config' : Config, config.Alike feed.Mentions config' → feed.ReadsAlike config config') ∧
    (∀ (c : Char) (precedence : Int32) (previous : Option Int32) (config' : Config),
      ¬feed.Mentions c → config.register c precedence = .ok (previous, config') →
        feed.ReadsAlike config config') ∧
    (∀ c : Char, ¬feed.Mentions c → feed.ReadsAlike config (config.remove c).2) ∧
    ∀ distance : Int32,
      (∀ c, feed.Mentions c → ∀ precedence, config.operators.precedence? c = some precedence →
        0 < precedence.toInt + distance.toInt ∧
          precedence.toInt + distance.toInt ≤ 2147483647) →
        feed.ReadsAlike config { config with operators := config.operators.shift distance } := by
  intro feed
  have hholds : feed.Holds feed.lexemes :=
    ⟨List.suffix_refl _, settled_performAll source before operations⟩
  have halike : ∀ config' : Config, config.Alike feed.Mentions config' →
      feed.ReadsAlike config config' := fun config' h =>
    ⟨read_alike h hholds, runFrom_alike h hholds .nothing [], readForms_alike h hholds⟩
  refine ⟨halike, fun c precedence previous config' hc hregister => ?_, fun c hc => ?_,
    fun distance h => halike _ ⟨OperatorTable.orderedAlike_shift h, rfl⟩⟩
  · rw [Config.register] at hregister
    split at hregister
    · cases hregister
    · split at hregister
      · cases hregister
      · cases hregister
        refine halike _ ⟨OperatorTable.orderedAlike_of_eq fun d hd => ?_, rfl⟩
        rw [OperatorTable.get?_insert]
        exact if_neg fun heq : d = c => hc (heq ▸ hd)
  · refine halike _ ⟨OperatorTable.orderedAlike_of_eq fun d hd => ?_, rfl⟩
    rw [Config.remove, OperatorTable.get?_erase]
    exact if_neg fun heq : d = c => hc (heq ▸ hd)

/-- A text with two operators is read alike under a table that has them at the two ends of the
range, and others besides; so it is when a third one is registered, when one that it does not have
is taken out, and when the levels are shifted as far as they can be. -/
theorem readsAlike_of_alike_of_two :
    let feed := Feed.start (Text.ofString "a + b * c")
    feed.ReadsAlike .standard
        ⟨⟨[('!', 3), ('*', 2147483647), ('+', 1), ('-', -7)]⟩, Config.standardDepth⟩ ∧
      (∀ previous config', Config.standard.register '%' 30 = .ok (previous, config') →
        feed.ReadsAlike .standard config') ∧
      feed.ReadsAlike .standard (Config.standard.remove '-').2 ∧
      feed.ReadsAlike .standard
        { Config.standard with operators := OperatorTable.standard.shift 2147483607 } := by
  intro feed
  have htokens : (Feed.start (Text.ofString "a + b * c")).lexemes.map Lexeme.token =
      [.identifier "a", .character '+', .identifier "b", .character '*', .identifier "c"] := by cbv
  have hmentions : ∀ c, feed.Mentions c → c = '+' ∨ c = '*' := by
    intro c hc
    rw [Mentions, Lexeme.Mention, htokens] at hc
    simpa using hc
  obtain ⟨halike, hregister, hremove, hshift⟩ :=
    readsAlike_of_alike (Text.ofString "a + b * c") .standard [] .standard
  have htable : OperatorTable.standard.OrderedAlike feed.Mentions
      ⟨[('!', 3), ('*', 2147483647), ('+', 1), ('-', -7)]⟩ := by
    constructor
    · intro c hc
      rcases hmentions c hc with rfl | rfl <;> decide
    · intro c d hc hd p q p' q' hp hq hp' hq'
      rcases hmentions c hc with rfl | rfl <;> rcases hmentions d hd with rfl | rfl <;>
        cases hp <;> cases hq <;> cases hp' <;> cases hq' <;> decide
  refine ⟨halike _ ⟨htable, rfl⟩, fun previous config' h => ?_, ?_, hshift 2147483607 ?_⟩
  · exact hregister '%' 30 previous config' (fun h => by simpa using hmentions '%' h) h
  · exact hremove '-' fun h => by simpa using hmentions '-' h
  · intro c hc precedence hprecedence
    rcases hmentions c hc with rfl | rfl <;> cases hprecedence <;> decide

end Feed

end Kaleidoscope
