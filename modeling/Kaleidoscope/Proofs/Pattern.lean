import Kaleidoscope.Proofs.Cutting

/-!
# Patterns of text

A pattern is looked for at the front of a text. Where it matches in several ways there is an order
of preference: the first of two alternatives before the second one, and more repetitions before
fewer. The main statements say which way each kind of pattern prefers.
-/

namespace Kaleidoscope

/-- A pattern for the front of a text. -/
inductive Pattern where
  /-- One character of a class. -/
  | one (isMember : Char → Bool)
  /-- Any number of characters of a class, rather more than fewer. -/
  | many (isMember : Char → Bool)
  /-- A pattern, or rather than not matching, nothing. -/
  | possibly (inner : Pattern)
  /-- A pattern with another one behind it. -/
  | both (first second : Pattern)
  /-- A pattern, or rather than not matching, another one. -/
  | either (first second : Pattern)

namespace Pattern

/-- The ways to split a text behind members of a class, from the most members to none. -/
def splitsMembers (isMember : Char → Bool) : List Char → List (List Char × List Char)
  | [] => [([], [])]
  | c :: rest =>
    if isMember c then
      ((splitsMembers isMember rest).map fun split => (c :: split.1, split.2)) ++ [([], c :: rest)]
    else [([], c :: rest)]

/-- The ways to split a text behind something that matches a pattern, in order of preference. -/
def splits : Pattern → List Char → List (List Char × List Char)
  | one _, [] => []
  | one isMember, c :: rest => if isMember c then [([c], rest)] else []
  | many isMember, text => splitsMembers isMember text
  | possibly inner, text => inner.splits text ++ [([], text)]
  | both first second, text =>
    (first.splits text).flatMap fun split =>
      (second.splits split.2).map fun next => (split.1 ++ next.1, next.2)
  | either first second, text => first.splits text ++ second.splits text

/-- The front of a text that a pattern finds. -/
def find? (pattern : Pattern) (text : List Char) : Option (List Char) :=
  (pattern.splits text).head?.map Prod.fst

/-- Whether a pattern prefers to match the front of a text, and to leave the rest. -/
def Prefers (pattern : Pattern) (text front back : List Char) : Prop :=
  (pattern.splits text).head? = some (front, back)

variable {first second : Pattern} {isMember : Char → Bool} {text front middle back : List Char}

/-- What is preferred is the first of the ways to split a text. -/
theorem prefers_iff :
    first.Prefers text front back ↔ (first.splits text).head? = some (front, back) := Iff.rfl

/-- One character is split off, or there is no way. -/
theorem splits_one_cons (isMember : Char → Bool) (c : Char) (rest : List Char) :
    (one isMember).splits (c :: rest) = if isMember c then [([c], rest)] else [] := rfl

/-- A repetition goes as far as there are members. -/
theorem splits_many_cons (isMember : Char → Bool) (c : Char) (rest : List Char) :
    (many isMember).splits (c :: rest) = if isMember c then
      (((many isMember).splits rest).map fun split => (c :: split.1, split.2)) ++ [([], c :: rest)]
    else [([], c :: rest)] := rfl

/-- To match nothing is the last way to match what is possible. -/
theorem splits_possibly (first : Pattern) (text : List Char) :
    (possibly first).splits text = first.splits text ++ [([], text)] := rfl

/-- The second pattern splits what the first one leaves. -/
theorem splits_both (first second : Pattern) (text : List Char) :
    (both first second).splits text = (first.splits text).flatMap fun split =>
      (second.splits split.2).map fun next => (split.1 ++ next.1, next.2) := rfl

/-- The ways of the second alternative come behind those of the first. -/
theorem splits_either (first second : Pattern) (text : List Char) :
    (either first second).splits text = first.splits text ++ second.splits text := rfl

/-- What is preferred is found. -/
theorem Prefers.find?_eq (h : first.Prefers text front back) : first.find? text = some front := by
  rw [find?, prefers_iff.1 h]
  rfl

/-- Where there is no way to match nothing is found. -/
theorem find?_of_splits_eq_nil (h : first.splits text = []) : first.find? text = none := by
  rw [find?, h]
  rfl

/-- A character of the class is matched. -/
theorem prefers_one {c : Char} (hc : isMember c = true) (rest : List Char) :
    (one isMember).Prefers (c :: rest) [c] rest := by
  rw [prefers_iff, splits_one_cons, if_pos hc]
  rfl

/-- Where no character of the class is in front, nothing is matched. -/
theorem splits_one_eq_nil (h : Stops isMember text) : (one isMember).splits text = [] := by
  cases text with
  | nil => rfl
  | cons c rest => rw [splits_one_cons, if_neg (Bool.eq_false_iff.1 (h c rfl))]

/-- Of a repetition all members in front are preferred. -/
theorem prefers_many (hfront : ∀ c ∈ front, isMember c = true) (hback : Stops isMember back) :
    (many isMember).Prefers (front ++ back) front back := by
  rw [prefers_iff]
  induction front with
  | nil =>
    cases back with
    | nil => rfl
    | cons c rest =>
      rw [List.nil_append, splits_many_cons, if_neg (Bool.eq_false_iff.1 (hback c rfl))]
      rfl
  | cons c front ih =>
    obtain ⟨hc, hfront⟩ := List.forall_mem_cons.1 hfront
    rw [List.cons_append, splits_many_cons, if_pos hc, List.head?_append, List.head?_map, ih hfront]
    rfl

/-- What is possible is preferred. -/
theorem Prefers.possibly (h : first.Prefers text front back) :
    (possibly first).Prefers text front back := by
  rw [prefers_iff, splits_possibly, List.head?_append, prefers_iff.1 h]
  rfl

/-- Where what is possible is not there, nothing is matched. -/
theorem prefers_possibly_nil (h : first.splits text = []) :
    (possibly first).Prefers text [] text := by
  rw [prefers_iff, splits_possibly, h]
  rfl

/-- Of two patterns behind each other the preference of the first counts before that of the
second. -/
theorem Prefers.both (hfirst : first.Prefers text front middle)
    {next : List Char} (hsecond : second.Prefers middle next back) :
    (both first second).Prefers text (front ++ next) back := by
  obtain ⟨others, hothers⟩ := List.head?_eq_some_iff.1 (prefers_iff.1 hfirst)
  rw [prefers_iff, splits_both, hothers, List.flatMap_cons, List.head?_append, List.head?_map,
    prefers_iff.1 hsecond]
  rfl

/-- Where the first of two patterns does not match, the two do not match behind each other. -/
theorem splits_both_eq_nil (h : first.splits text = []) : (both first second).splits text = [] := by
  rw [splits_both, h]
  rfl

/-- Behind a single character two patterns do not match where the second does not. -/
theorem splits_one_both_eq_nil {c : Char} {rest : List Char} (h : second.splits rest = []) :
    ((one isMember).both second).splits (c :: rest) = [] := by
  rw [splits_both, splits_one_cons]
  split
  · rw [List.flatMap_singleton, h]
    rfl
  · rfl

/-- The first of two alternatives is preferred. -/
theorem Prefers.either (h : first.Prefers text front back) :
    (either first second).Prefers text front back := by
  rw [prefers_iff, splits_either, List.head?_append, prefers_iff.1 h]
  rfl

/-- Where the first of two alternatives does not match, the second one counts. -/
theorem splits_either_of_eq_nil (h : first.splits text = []) :
    (either first second).splits text = second.splits text := by
  rw [splits_either, h, List.nil_append]

end Pattern

end Kaleidoscope
