import Kaleidoscope.Expr.Chain
import Mathlib.Data.List.TakeWhile

/-!
# How a chain is grouped

The tree of a chain, said without climbing: its root is the operator that binds least, the last one
of several, and what stands on either side of it is grouped in the same way. The main statement
says that climbing from a minimum finds this tree for the links up to the first one below the
minimum, whatever integers the precedences are.
-/

namespace Kaleidoscope

namespace Link

/-- A chain cut at one of its links. -/
structure Split where
  /-- The links in front of it. -/
  before : List Link
  /-- The link. -/
  root : Link
  /-- The links behind it. -/
  after : List Link

/-- The cut at the link that binds least, and at the last one of several. -/
def loosest? : List Link → Option Split
  | [] => none
  | link :: links =>
    match loosest? links with
    | none => some ⟨[], link, []⟩
    | some split =>
      if link.precedence < split.root.precedence then some ⟨[], link, links⟩
      else some ⟨link :: split.before, split.root, split.after⟩

/-- Only the empty chain has no link to cut at. -/
theorem loosest?_eq_none {links : List Link} (h : loosest? links = none) : links = [] := by
  cases links with
  | nil => rfl
  | cons link links =>
    rw [loosest?] at h
    split at h
    · cases h
    · split at h <;> cases h

/-- The link at the cut binds at most as tightly as those in front of it, and less tightly than
those behind it. -/
theorem loosest?_spec {links : List Link} {split : Split} (h : loosest? links = some split) :
    links = split.before ++ split.root :: split.after ∧
      (∀ link ∈ split.before, split.root.precedence ≤ link.precedence) ∧
      ∀ link ∈ split.after, split.root.precedence < link.precedence := by
  induction links generalizing split with
  | nil => cases h
  | cons link links ih =>
    rw [loosest?] at h
    split at h
    · next hnone =>
      cases h
      rw [loosest?_eq_none hnone]
      exact ⟨rfl, by simp, by simp⟩
    · next inner hinner =>
      obtain ⟨hlinks, hbefore, hafter⟩ := ih hinner
      split at h
      · next hlt =>
        cases h
        refine ⟨rfl, by simp, fun other hmem => ?_⟩
        rw [hlinks] at hmem
        rcases List.mem_append.1 hmem with hmem | hmem
        · exact Int32.lt_of_lt_of_le hlt (hbefore other hmem)
        · rcases List.mem_cons.1 hmem with rfl | hmem
          · exact hlt
          · exact Int32.lt_trans hlt (hafter other hmem)
      · next hle =>
        cases h
        refine ⟨by rw [hlinks]; rfl, fun other hmem => ?_, hafter⟩
        rcases List.mem_cons.1 hmem with rfl | hmem
        · exact Int32.not_lt.1 hle
        · exact hbefore other hmem

/-- A chain is cut at a link that binds least if those behind it bind tighter. -/
theorem loosest?_append {before after : List Link} {root : Link}
    (hbefore : ∀ link ∈ before, root.precedence ≤ link.precedence)
    (hafter : ∀ link ∈ after, root.precedence < link.precedence) :
    loosest? (before ++ root :: after) = some ⟨before, root, after⟩ := by
  induction before with
  | nil =>
    rw [List.nil_append, loosest?]
    split
    · next hnone => rw [loosest?_eq_none hnone]
    · next split hsplit =>
      have hroot : split.root ∈ after := by
        rw [(loosest?_spec hsplit).1]
        exact List.mem_append_right _ List.mem_cons_self
      rw [if_pos (hafter _ hroot)]
  | cons link before ih =>
    have hrest := ih fun other hmem => hbefore other (List.mem_cons_of_mem _ hmem)
    have hle := hbefore link List.mem_cons_self
    rw [List.cons_append, loosest?, hrest]
    dsimp only
    rw [if_neg (Int32.not_lt.2 hle)]

/-- A cut leaves fewer links on either side. -/
theorem length_loosest?_lt {links : List Link} {split : Split} (h : loosest? links = some split) :
    split.before.length < links.length ∧ split.after.length < links.length := by
  have hlength := congrArg List.length (loosest?_spec h).1
  rw [List.length_append, List.length_cons] at hlength
  omega

/-- The tree of a chain: its root is the operator that binds least, the last one of several; the
chains on either side of it give the operands. -/
def grouping (first : Expr) (links : List Link) : Expr :=
  match _h : loosest? links with
  | none => first
  | some split =>
    .binary split.root.operator (grouping first split.before)
      (grouping split.root.operand split.after)
termination_by links.length
decreasing_by
  · exact (length_loosest?_lt _h).1
  · exact (length_loosest?_lt _h).2

/-- A single operand is its own tree. -/
theorem grouping_nil (first : Expr) : grouping first [] = first := by
  rw [grouping]
  rfl

/-- The root of a tree is the operator that binds at most as tightly as those in front of it and
less tightly than those behind it. -/
theorem grouping_append {before after : List Link} {root : Link}
    (hbefore : ∀ link ∈ before, root.precedence ≤ link.precedence)
    (hafter : ∀ link ∈ after, root.precedence < link.precedence) (first : Expr) :
    grouping first (before ++ root :: after) =
      .binary root.operator (grouping first before) (grouping root.operand after) := by
  rw [grouping]
  split
  · next hnone =>
    rw [loosest?_append hbefore hafter] at hnone
    cases hnone
  · next split hsplit =>
    rw [loosest?_append hbefore hafter] at hsplit
    cases hsplit
    rfl

/-- Whether a link binds at least as tightly as a minimum. -/
def reaches (minimum : Int32) (link : Link) : Bool := decide (minimum ≤ link.precedence)

/-- Whether a link binds tighter than a precedence. -/
def exceeds (precedence : Int32) (link : Link) : Bool := decide (precedence < link.precedence)

/-- Where something binds tighter than a precedence, the next integer is no overflow. -/
theorem toInt_succ {precedence other : Int32} (h : precedence < other) :
    (precedence + 1).toInt = precedence.toInt + 1 := by
  have hlt := Int32.lt_iff_toInt_lt.1 h
  have hbound := Int32.toInt_lt other
  have hlow := Int32.le_toInt precedence
  have hone : (1 : Int32).toInt = 1 := rfl
  rw [Int32.toInt_add, hone]
  exact Int.bmod_eq_of_le (by omega) (by omega)

/-- To bind at least as tightly as the integer above a precedence is to bind tighter than it. -/
theorem reaches_succ {precedence : Int32} {other : Link} (h : precedence < other.precedence) :
    reaches (precedence + 1) = exceeds precedence := by
  funext link
  simp only [reaches, exceeds, Int32.le_iff_toInt_le, Int32.lt_iff_toInt_lt, toInt_succ h]
  exact decide_eq_decide.2 Int.add_one_le_iff

/-- Behind a link, what binds tighter than it is grouped into its right operand, and all else takes
the result for its left operand. -/
theorem grouping_cons_append {link : Link} {tight loose : List Link}
    (htight : ∀ other ∈ tight, link.precedence < other.precedence)
    (hloose : ∀ other ∈ loose.head?, other.precedence ≤ link.precedence) (first : Expr) :
    grouping first (link :: (tight ++ loose)) =
      grouping (.binary link.operator first (grouping link.operand tight)) loose := by
  -- The root of the whole chain is the root of what binds no tighter, so the two trees agree there.
  induction hlength : loose.length using Nat.strongRecOn generalizing loose with
  | ind length ih =>
    cases hcut : loosest? loose with
    | none =>
      have hnil := loosest?_eq_none hcut
      subst hnil
      have hroot : grouping first ([] ++ link :: tight) = _ :=
        grouping_append (by simp) htight first
      rw [List.nil_append, grouping_nil] at hroot
      rw [List.append_nil, grouping_nil, hroot]
    | some split =>
      obtain ⟨before, root, after⟩ := split
      obtain ⟨hsplit, hbefore, hafter⟩ := loosest?_spec hcut
      dsimp only at hsplit hbefore hafter
      subst hsplit
      have hroot : root.precedence ≤ link.precedence := by
        cases before with
        | nil => exact hloose root rfl
        | cons other before =>
          exact Int32.le_trans (hbefore other List.mem_cons_self) (hloose other rfl)
      have hfront : ∀ other ∈ link :: (tight ++ before), root.precedence ≤ other.precedence := by
        intro other hmem
        rcases List.mem_cons.1 hmem with rfl | hmem
        · exact hroot
        · rcases List.mem_append.1 hmem with hmem | hmem
          · exact Int32.le_of_lt (Int32.lt_of_le_of_lt hroot (htight other hmem))
          · exact hbefore other hmem
      have hhead : ∀ other ∈ before.head?, other.precedence ≤ link.precedence := by
        intro other hmem
        cases before with
        | nil => cases hmem
        | cons => exact hloose other hmem
      have hshorter : before.length < length := by
        rw [← hlength, List.length_append, List.length_cons]
        omega
      have hinner := ih before.length hshorter hhead rfl
      have hwhole : link :: (tight ++ (before ++ root :: after)) =
          (link :: (tight ++ before)) ++ root :: after := by
        rw [List.cons_append, List.append_assoc]
      rw [hwhole, grouping_append hfront hafter, grouping_append hbefore hafter, hinner]

/-- The right operand that climbing gives to a link is the tree of all that binds tighter behind
it. -/
theorem climb_tighter {link : Link} {links : List Link}
    (hclimb : (climb (link.precedence + 1) link.operand links).expr =
        grouping link.operand (links.takeWhile (reaches (link.precedence + 1))) ∧
      (climb (link.precedence + 1) link.operand links).rest =
        links.dropWhile (reaches (link.precedence + 1)))
    {right : Grouped links}
    (hright : right = if tighterThan link.precedence links then
        climb (link.precedence + 1) link.operand links
      else ⟨link.operand, links, Nat.le_refl _⟩) :
    right.expr = grouping link.operand (links.takeWhile (exceeds link.precedence)) ∧
      right.rest = links.dropWhile (exceeds link.precedence) := by
  subst hright
  cases links with
  | nil => exact ⟨(grouping_nil _).symm, rfl⟩
  | cons next links =>
    by_cases hlt : link.precedence < next.precedence
    · rw [reaches_succ hlt] at hclimb
      have htighter : tighterThan link.precedence (next :: links) = true := decide_eq_true hlt
      rw [if_pos htighter]
      exact hclimb
    · have htighter : ¬tighterThan link.precedence (next :: links) = true := by
        simpa only [tighterThan, decide_eq_true_eq] using hlt
      have hexceeds : ¬exceeds link.precedence next = true := by
        simpa only [exceeds, decide_eq_true_eq] using hlt
      rw [if_neg htighter, List.takeWhile_cons_of_neg hexceeds, List.dropWhile_cons_of_neg hexceeds]
      exact ⟨(grouping_nil _).symm, rfl⟩

/-- Climbing from a minimum groups the links up to the first one below the minimum, and leaves the
others. -/
theorem climb_spec (minimum : Int32) (first : Expr) (links : List Link) :
    (climb minimum first links).expr = grouping first (links.takeWhile (reaches minimum)) ∧
      (climb minimum first links).rest = links.dropWhile (reaches minimum) := by
  fun_induction climb minimum first links with
  | case1 minimum first => exact ⟨(grouping_nil first).symm, rfl⟩
  | case2 minimum first link links hlt =>
    have hreaches : ¬reaches minimum link = true := by
      simpa only [reaches, decide_eq_true_eq, Int32.not_le] using hlt
    rw [List.takeWhile_cons_of_neg hreaches, List.dropWhile_cons_of_neg hreaches]
    exact ⟨(grouping_nil first).symm, rfl⟩
  | case3 minimum first link links hle right whole ihright ihwhole _ =>
    obtain ⟨hexpr, hrest⟩ : right.expr = _ ∧ right.rest = _ := climb_tighter ihright rfl
    have hminimum : minimum ≤ link.precedence := Int32.not_lt.1 hle
    have hreaches : reaches minimum link = true := decide_eq_true hminimum
    have htight : ∀ other ∈ links.takeWhile (exceeds link.precedence),
        link.precedence < other.precedence :=
      fun other hmem => of_decide_eq_true (List.all_eq_true.1 List.all_takeWhile other hmem)
    have htaken : ∀ other ∈ links.takeWhile (exceeds link.precedence),
        reaches minimum other = true :=
      fun other hmem => decide_eq_true
        (Int32.le_of_lt (Int32.lt_of_le_of_lt hminimum (htight other hmem)))
    have hloose : ∀ other ∈ (right.rest.takeWhile (reaches minimum)).head?,
        other.precedence ≤ link.precedence := by
      intro other hmem
      rw [List.head?_takeWhile, hrest] at hmem
      have hhead := List.head?_dropWhile_not (exceeds link.precedence) links
      rw [(Option.filter_eq_some_iff.1 hmem).1] at hhead
      exact Int32.not_lt.1 (of_decide_eq_false hhead)
    have hsplit : links = links.takeWhile (exceeds link.precedence) ++ right.rest := by
      rw [hrest, List.takeWhile_append_dropWhile]
    obtain ⟨hwhole, hleft⟩ : whole.expr = _ ∧ whole.rest = _ := ihwhole
    constructor
    · change whole.expr = _
      rw [hwhole, hexpr, ← grouping_cons_append htight hloose, List.takeWhile_cons_of_pos hreaches,
        ← List.takeWhile_append_of_pos htaken, ← hsplit]
    · change whole.rest = _
      rw [hleft, List.dropWhile_cons_of_pos hreaches]
      conv => rhs; rw [hsplit, List.dropWhile_append_of_pos htaken]

/-- Operators that bind equally take their operands from the left. -/
theorem grouping_of_equal {precedence : Int32} {links : List Link}
    (h : ∀ link ∈ links, link.precedence = precedence) (first : Expr) :
    grouping first links =
      links.foldl (fun left link => .binary link.operator left link.operand) first := by
  induction links generalizing first with
  | nil => exact grouping_nil first
  | cons link links ih =>
    have hloose : ∀ other ∈ links.head?, other.precedence ≤ link.precedence := by
      intro other hmem
      rw [h link List.mem_cons_self, h other (List.mem_cons_of_mem _ (List.mem_of_mem_head? hmem))]
      exact Int32.le_refl _
    have hcons : grouping first (link :: ([] ++ links)) = _ :=
      grouping_cons_append (by simp) hloose first
    rw [List.nil_append, grouping_nil] at hcons
    rw [hcons, List.foldl_cons]
    exact ih (fun other hmem => h other (List.mem_cons_of_mem _ hmem)) _

/-- A single operator takes both operands. -/
theorem grouping_singleton (first : Expr) (link : Link) :
    grouping first [link] = .binary link.operator first link.operand := by
  have hequal : ∀ other ∈ [link], other.precedence = link.precedence := by
    intro other hmem
    rw [List.mem_singleton.1 hmem]
  exact grouping_of_equal hequal first

/-- Whether a tree is built over the operands and operators of a chain, each of them once and in
their order. -/
inductive Spans : Expr → Expr → List Link → Prop where
  /-- A single operand is a tree over itself. -/
  | operand (first : Expr) : Spans first first []
  /-- A tree over a chain has an operator of it for its root, and trees over both sides. -/
  | node {left right first : Expr} {before after : List Link} {root : Link}
    (hleft : Spans left first before) (hright : Spans right root.operand after) :
    Spans (.binary root.operator left right) first (before ++ root :: after)

/-- No operand and no operator of a chain is lost, doubled or moved by grouping. -/
theorem spans_grouping (first : Expr) (links : List Link) :
    Spans (grouping first links) first links := by
  fun_induction grouping first links with
  | case1 first links h =>
    rw [loosest?_eq_none h]
    exact .operand first
  | case2 first links split h ihbefore ihafter =>
    rw [(loosest?_spec h).1]
    exact .node ihbefore ihafter

end Link

/-- The tree of a chain whose precedences are not negative. -/
theorem Expr.ofChain_eq_grouping {links : List Link} (h : ∀ link ∈ links, 0 ≤ link.precedence)
    (first : Expr) : ofChain first links = Link.grouping first links := by
  have hall : links.takeWhile (Link.reaches 0) = links :=
    List.takeWhile_eq_self_iff.2 fun link hmem => decide_eq_true (h link hmem)
  rw [ofChain, (Link.climb_spec 0 first links).1, hall]

end Kaleidoscope
