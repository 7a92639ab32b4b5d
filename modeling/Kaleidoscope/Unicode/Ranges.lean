/-!
# Sets of code points

A property of the Unicode standard is a finite list of inclusive ranges of code
points. Membership is decided by a search of that list. All lists follow version 17.0 of
the standard.
-/

namespace Kaleidoscope.Unicode

/-- Whether the code point of `c` lies in one of the inclusive `ranges`. -/
def inRanges (ranges : List (Nat × Nat)) (c : Char) : Bool :=
  ranges.any fun (first, last) => decide (first ≤ c.toNat) && decide (c.toNat ≤ last)

/-- A character is in the ranges exactly when one of them encloses its code point. -/
theorem inRanges_iff (ranges : List (Nat × Nat)) (c : Char) :
    inRanges ranges c = true ↔ ∃ range ∈ ranges, range.1 ≤ c.toNat ∧ c.toNat ≤ range.2 := by
  simp only [inRanges, List.any_eq_true, Bool.and_eq_true, decide_eq_true_eq]

end Kaleidoscope.Unicode
