import Kaleidoscope.Expr.Basic

/-!
# Chains of operators

Operands with operators between them, before it is settled which operator takes what. An operator
takes for its right operand the next one, and with it every operator behind that binds tighter;
equal operators take their operands from the left.
-/

namespace Kaleidoscope

/-- An operator in a chain, and the operand behind it. -/
structure Link where
  /-- The operator. -/
  operator : Char
  /-- How tightly it binds. -/
  precedence : Int32
  /-- The operand behind it. -/
  operand : Expr

namespace Link

/-- The part of a chain that has been grouped, and the links that it has left over. -/
structure Grouped (links : List Link) where
  /-- The tree of the grouped part. -/
  expr : Expr
  /-- The links behind it. -/
  rest : List Link
  /-- No link comes from elsewhere. -/
  length_rest_le : rest.length ≤ links.length

/-- Whether the first of some links binds tighter than a precedence. -/
def tighterThan (precedence : Int32) : List Link → Bool
  | [] => false
  | link :: _ => decide (precedence < link.precedence)

/-- Groups the links from the first one on that bind at least as tightly as a minimum, with a tree
for the leftmost operand. Where the next link binds tighter than the current one, the right operand
is grouped first, with a minimum just above the precedence of the current one. -/
def climb (minimum : Int32) (left : Expr) (links : List Link) : Grouped links :=
  match links with
  | [] => ⟨left, [], Nat.le_refl _⟩
  | link :: links =>
    if link.precedence < minimum then ⟨left, link :: links, Nat.le_refl _⟩
    else
      let right : Grouped links :=
        if tighterThan link.precedence links then
          climb (link.precedence + 1) link.operand links
        else ⟨link.operand, links, Nat.le_refl _⟩
      let whole := climb minimum (.binary link.operator left right.expr) right.rest
      ⟨whole.expr, whole.rest,
        Nat.le_succ_of_le (Nat.le_trans whole.length_rest_le right.length_rest_le)⟩
termination_by links.length
decreasing_by
  · exact Nat.lt_succ_self _
  · exact Nat.lt_succ_of_le right.length_rest_le

end Link

/-- The tree of a chain. -/
def Expr.ofChain (first : Expr) (links : List Link) : Expr := (Link.climb 0 first links).expr

end Kaleidoscope
