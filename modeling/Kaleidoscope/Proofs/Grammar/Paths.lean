import Kaleidoscope.Proofs.Readings
import Kaleidoscope.Proofs.FirstError
import Mathlib.Data.Finset.Card

/-!
# Paths in a tree that has been read

How far a tree that has been read goes down. Every argument on a path to a node is paid for by an
expression inside another one, and so is every change of a chain; within a chain the operators whose
right operands are entered one after the other bind tighter and tighter. So the depth limit and the
number of levels in the operator table bound all of a path but its steps to left operands.
-/

namespace Kaleidoscope

/-- The levels of a table: the precedences of its operators. -/
def OperatorTable.levels (table : OperatorTable) : Finset Int32 :=
  ((table.entries.map Prod.fst).filterMap table.precedence?).toFinset

/-- Every operator is on a level. -/
theorem OperatorTable.mem_levels {table : OperatorTable} {c : Char} {precedence : Int32}
    (h : table.precedence? c = some precedence) : precedence ∈ table.levels := by
  have hget : table.get? c = some precedence := (Option.filter_eq_some_iff.1 h).1
  obtain ⟨before, after, hentries, _⟩ := List.lookup_eq_some_iff.1 hget
  have hmem : c ∈ table.entries.map Prod.fst := by
    rw [hentries, List.map_append, List.map_cons]
    exact List.mem_append_right _ List.mem_cons_self
  exact List.mem_toFinset.2 (List.mem_filterMap.2 ⟨c, hmem, h⟩)

namespace Expr

/-- An edge from a node of a tree to one below it. -/
inductive Edge where
  /-- To the left operand. -/
  | left
  /-- To the right operand. -/
  | right
  /-- To an argument. -/
  | argument
  deriving DecidableEq

/-- Whether some edges lead from the root of a tree to a node of it, which is given with all that is
below it. -/
inductive Path : Expr → List Edge → Expr → Prop where
  /-- No edge leads from the root elsewhere. -/
  | here (expr : Expr) : Path expr [] expr
  /-- A path into the left operand. -/
  | left {operator : Char} {left right node : Expr} {edges : List Edge}
    (h : Path left edges node) : Path (.binary operator left right) (.left :: edges) node
  /-- A path into the right operand. -/
  | right {operator : Char} {left right node : Expr} {edges : List Edge}
    (h : Path right edges node) : Path (.binary operator left right) (.right :: edges) node
  /-- A path into an argument. -/
  | argument {callee : String} {arguments : List Expr} {argument node : Expr} {edges : List Edge}
    (hmem : argument ∈ arguments) (h : Path argument edges node) :
    Path (.call callee arguments) (.argument :: edges) node

/-- Whether every path in a tree has fewer edges to an argument than a limit, and at most a number
of edges to a right operand. -/
def Within (limit rights : Nat) (expr : Expr) : Prop :=
  ∀ edges node, expr.Path edges node →
    edges.count .argument < limit ∧ edges.count .right ≤ rights

variable {limit rights : Nat}

/-- Wider bounds are bounds. -/
theorem Within.mono {expr : Expr} (h : expr.Within limit rights) {limit' rights' : Nat}
    (hlimit : limit ≤ limit') (hrights : rights ≤ rights') : expr.Within limit' rights' := by
  intro edges node hpath
  obtain ⟨harguments, hright⟩ := h edges node hpath
  exact ⟨Nat.lt_of_lt_of_le harguments hlimit, Nat.le_trans hright hrights⟩

/-- In a number there is no way down. -/
theorem within_number (value : Double) : (number value).Within (limit + 1) rights := by
  rintro _ _ ⟨⟩
  exact ⟨Nat.succ_pos limit, Nat.zero_le rights⟩

/-- In a variable there is no way down. -/
theorem within_reference (name : String) : (reference name).Within (limit + 1) rights := by
  rintro _ _ ⟨⟩
  exact ⟨Nat.succ_pos limit, Nat.zero_le rights⟩

/-- A call adds an edge to an argument. -/
theorem within_call {arguments : List Expr}
    (h : ∀ argument ∈ arguments, argument.Within limit rights) (callee : String) :
    (call callee arguments).Within (limit + 1) rights := by
  intro edges node hpath
  cases hpath with
  | here => exact ⟨Nat.succ_pos limit, Nat.zero_le rights⟩
  | @argument _ _ argument _ edges hmem hpath =>
    obtain ⟨harguments, hright⟩ := h argument hmem edges node hpath
    rw [List.count_cons_self, List.count_cons_of_ne (by decide)]
    exact ⟨Nat.succ_lt_succ harguments, hright⟩

/-- An operator adds an edge to the right operand. -/
theorem within_binary {left right : Expr} (hleft : left.Within limit (rights + 1))
    (hright : right.Within limit rights) (operator : Char) :
    (binary operator left right).Within limit (rights + 1) := by
  intro edges node hpath
  cases hpath with
  | here =>
    obtain ⟨hlimit, _⟩ := hleft [] left (.here left)
    exact ⟨hlimit, Nat.zero_le _⟩
  | @left _ _ _ _ edges hpath =>
    rw [List.count_cons_of_ne (by decide), List.count_cons_of_ne (by decide)]
    exact hleft edges node hpath
  | @right _ _ _ _ edges hpath =>
    obtain ⟨harguments, hrights⟩ := hright edges node hpath
    rw [List.count_cons_self, List.count_cons_of_ne (by decide)]
    exact ⟨harguments, Nat.succ_le_succ hrights⟩

end Expr

/-- In the tree of a chain, the way down to an operand adds at most one edge to a right operand for
each level of the operators. -/
theorem Link.within_grouping {first : Expr} {links : List Link} {limit rights : Nat}
    {levels : Finset Int32} (hlevels : ∀ link ∈ links, link.precedence ∈ levels)
    (hfirst : first.Within limit rights)
    (hoperands : ∀ link ∈ links, link.operand.Within limit rights) :
    (grouping first links).Within limit (rights + levels.card) := by
  fun_induction grouping first links generalizing levels with
  | case1 first links h => exact hfirst.mono (Nat.le_refl limit) (Nat.le_add_right _ _)
  | case2 first links split h ihbefore ihafter =>
    obtain ⟨hlinks, _, hafter⟩ := loosest?_spec h
    have hbefore_mem : ∀ link ∈ split.before, link ∈ links := by
      intro link hmem
      rw [hlinks]
      exact List.mem_append_left _ hmem
    have hroot_mem : split.root ∈ links := by
      rw [hlinks]
      exact List.mem_append_right _ List.mem_cons_self
    have hafter_mem : ∀ link ∈ split.after, link ∈ links := by
      intro link hmem
      rw [hlinks]
      exact List.mem_append_right _ (List.mem_cons_of_mem _ hmem)
    -- What stands behind the root binds tighter, so the level of the root is free no more.
    have htighter : ∀ link ∈ split.after, link.precedence ∈ levels.erase split.root.precedence :=
      fun link hmem => Finset.mem_erase.2
        ⟨(Int32.ne_of_lt (hafter link hmem)).symm, hlevels link (hafter_mem link hmem)⟩
    have hcard := Finset.card_erase_add_one (hlevels split.root hroot_mem)
    have hleft := ihbefore (fun link hmem => hlevels link (hbefore_mem link hmem)) hfirst
      fun link hmem => hoperands link (hbefore_mem link hmem)
    have hright := ihafter htighter (hoperands split.root hroot_mem)
      fun link hmem => hoperands link (hafter_mem link hmem)
    rw [← hcard, ← Nat.add_assoc] at hleft ⊢
    exact Expr.within_binary hleft hright split.root.operator

namespace Grammar

variable {table : OperatorTable}

/-- The operators of a chain are on the levels of the table. -/
theorem Tail.links_levels {tail : Tail} (h : tail.Valid table) :
    ∀ link ∈ tail.links table, link.precedence ∈ table.levels := by
  match tail with
  | .done => simp [links]
  | .more operator operand rest =>
    obtain ⟨⟨precedence, hprecedence⟩, _, hrest⟩ := h
    intro link hmem
    rcases List.mem_cons.1 hmem with rfl | hmem
    · rw [hprecedence]
      exact OperatorTable.mem_levels hprecedence
    · exact links_levels hrest link hmem

mutual

/-- The tree of an operand goes down as far as the expressions inside it nest. -/
theorem Primary.within (primary : Primary) (h : primary.Valid table) :
    (primary.tree table).Within (primary.nesting + 1) (primary.nesting * table.levels.card) := by
  cases primary with
  | number value => exact Expr.within_number value
  | name word => exact Expr.within_reference word
  | call callee arguments => exact Expr.within_call (arguments.within h) callee
  | group inner => exact (inner.within h).mono (Nat.le_succ _) (Nat.le_refl _)

/-- The tree of an expression has fewer edges to an argument on a path than the expression nests,
and goes to the right at most once for each level and each expression on the way. -/
theorem Phrase.within (phrase : Phrase) (h : phrase.Valid table) :
    (phrase.tree table).Within phrase.nesting (phrase.nesting * table.levels.card) := by
  obtain ⟨first, tail⟩ := phrase
  have hfirst := (first.within h.1).mono
    (Nat.succ_le_succ (Nat.le_max_left first.nesting tail.nesting))
    (Nat.mul_le_mul_right table.levels.card (Nat.le_max_left first.nesting tail.nesting))
  have hoperands : ∀ link ∈ tail.links table, link.operand.Within _ _ :=
    fun link hmem => (tail.within h.2 link hmem).mono
      (Nat.succ_le_succ (Nat.le_max_right first.nesting tail.nesting))
      (Nat.mul_le_mul_right table.levels.card (Nat.le_max_right first.nesting tail.nesting))
  have htree := Link.within_grouping (Tail.links_levels h.2) hfirst hoperands
  rw [Phrase.nesting, Nat.add_comm 1, Nat.succ_mul]
  exact htree

/-- The trees of the operands behind the first one have no more edges on a path than the operands
allow. -/
theorem Tail.within (tail : Tail) (h : tail.Valid table) (link : Link)
    (hmem : link ∈ tail.links table) :
    link.operand.Within (tail.nesting + 1) (tail.nesting * table.levels.card) := by
  cases tail with
  | done => cases hmem
  | more operator operand rest =>
    rcases List.mem_cons.1 hmem with rfl | hmem
    · exact (operand.within h.2.1).mono
        (Nat.succ_le_succ (Nat.le_max_left operand.nesting rest.nesting))
        (Nat.mul_le_mul_right _ (Nat.le_max_left operand.nesting rest.nesting))
    · exact (rest.within h.2.2 link hmem).mono
        (Nat.succ_le_succ (Nat.le_max_right operand.nesting rest.nesting))
        (Nat.mul_le_mul_right _ (Nat.le_max_right operand.nesting rest.nesting))

/-- The trees of arguments have no more edges on a path than the arguments allow. -/
theorem Arguments.within (arguments : Arguments) (h : arguments.Valid table) (argument : Expr)
    (hmem : argument ∈ arguments.trees table) :
    argument.Within arguments.nesting (arguments.nesting * table.levels.card) := by
  cases arguments with
  | none => cases hmem
  | more first rest =>
    rcases List.mem_cons.1 hmem with rfl | hmem
    · exact (first.within h.1).mono (Nat.le_max_left first.nesting rest.nesting)
        (Nat.mul_le_mul_right _ (Nat.le_max_left first.nesting rest.nesting))
    · exact (rest.within h.2 argument hmem).mono (Nat.le_max_right first.nesting rest.nesting)
        (Nat.mul_le_mul_right _ (Nat.le_max_right first.nesting rest.nesting))

end

end Grammar

namespace Feed

variable {σ : Type} [CharStream σ] {config : Config}

/-- The tree in what has been read of a construct goes down as far as the configuration allows. -/
theorem within_read {feed : Feed σ} {construct : Construct} {value : construct.Value}
    (hread : (feed.read config construct).result = some (.ok value)) {tree : Expr}
    (htree : construct.body? value = some tree) :
    tree.Within config.maxDepth (config.maxDepth * config.operators.levels.card) := by
  obtain ⟨start, _, hresult⟩ := exists_readExpr_of_ok hread htree
  obtain ⟨_, phrase, _, _, hvalid, hnesting, rfl⟩ := Grammar.exists_phrase_of_readExpr hresult
  exact (phrase.within hvalid).mono hnesting (Nat.mul_le_mul_right _ hnesting)

/-- In every tree that is read from a feed, by itself or in a form, each path from the root has
fewer edges to an argument than the depth limit, and at most as many edges to a right operand as the
limit times the number of levels in the operator table. So it is in the forms of a run, and in those
that are read strictly. -/
theorem paths_read (config : Config) (feed : Feed σ) :
    (∀ (construct : Construct) (value : construct.Value) (tree : Expr),
      (feed.read config construct).result = some (.ok value) → construct.body? value = some tree →
        tree.Within config.maxDepth (config.maxDepth * config.operators.levels.card)) ∧
    (∀ (form : Form) (tree : Expr), .ok form ∈ (feed.run config).outcomes →
      form.body? = some tree →
        tree.Within config.maxDepth (config.maxDepth * config.operators.levels.card)) ∧
    ∀ (forms : List Form) (form : Form) (tree : Expr), feed.readForms config [] = .ok forms →
      form ∈ forms → form.body? = some tree →
        tree.Within config.maxDepth (config.maxDepth * config.operators.levels.card) := by
  have hanywhere : Kept fun _ : Feed σ => True := ⟨fun _ => trivial, fun _ _ => trivial⟩
  have hrun : ∀ (form : Form) (tree : Expr), .ok form ∈ (feed.run config).outcomes →
      form.body? = some tree →
        tree.Within config.maxDepth (config.maxDepth * config.operators.levels.card) := by
    intro form tree hmem htree
    obtain ⟨before, _, hread⟩ := hanywhere.exists_readForm trivial hmem
    exact @within_read _ _ _ before .form form hread tree htree
  refine ⟨fun construct value tree hread htree => within_read hread htree, hrun,
    fun forms form tree hforms hmem htree => hrun form tree ?_ htree⟩
  rw [outcomes_of_readForms hforms]
  exact List.mem_map_of_mem hmem

/-- An expression with two operators and a call behind them, and two more in its argument. -/
def descending : Grammar.Phrase :=
  .chain (.name "a") (.more '+' (.name "b") (.more '*' (.call "f" (.more
    (.chain (.name "c") (.more '+' (.name "d") (.more '*' (.name "e") .done))) .none)) .done))

/-- The tree of the descending expression. -/
def descendingTree : Expr :=
  .binary '+' (.reference "a") (.binary '*' (.reference "b")
    (.call "f" [.binary '+' (.reference "c") (.binary '*' (.reference "d") (.reference "e"))]))

/-- Under a table of two levels and a limit of two the descending expression is read, and the path
to its last name has as many edges as there may be: one to an argument, and two for each level to a
right operand. -/
theorem paths_read_of_descending :
    let config : Config := ⟨⟨[('*', 2), ('+', 1)]⟩, 2⟩
    let feed := Feed.start (Text.ofString "a + b * f(c + d * e)")
    (feed.read config .expr).result = some (.ok descendingTree) ∧
      descendingTree.Within 2 (2 * 2) ∧
      descendingTree.Path [.right, .right, .argument, .right, .right] (.reference "e") := by
  intro config feed
  have hkeeps : config.operators.KeepsPunctuation := ⟨rfl, rfl, rfl, rfl⟩
  have hvalid : descending.Valid config.operators :=
    ⟨trivial, ⟨1, rfl⟩, trivial, ⟨2, rfl⟩,
      ⟨⟨trivial, ⟨1, rfl⟩, trivial, ⟨2, rfl⟩, trivial, trivial⟩, trivial⟩, trivial⟩
  have htokens : descending.tokens = Token.ofString "a + b * f(c + d * e)" := by cbv
  have hdelivers : feed.Delivers (descending.tokens ++ []) := by
    rw [List.append_nil, htokens]
    exact delivers_ofString _
  have hyields := descending.yields hkeeps hvalid hdelivers
  have hfollows : Grammar.Follows config descending.bare [] := ⟨rfl, fun _ => Token.noConfusion⟩
  have htree : descending.tree config.operators = descendingTree := by cbv
  have hread : (feed.read config .expr).result = some (.ok descendingTree) := by
    rw [← htree]
    exact congrArg some (hyields.result (by decide) hfollows).1
  have hcard : config.operators.levels.card = 2 := by decide
  obtain ⟨hpaths, _⟩ := paths_read config feed
  have hwithin := hpaths .expr descendingTree descendingTree hread rfl
  rw [hcard] at hwithin
  exact ⟨hread, hwithin, .right (.right (.argument List.mem_cons_self (.right (.right (.here _)))))⟩

end Feed

end Kaleidoscope
