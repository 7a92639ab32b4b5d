import Kaleidoscope.Proofs.Lexing
import Kaleidoscope.Proofs.Number.Nearest
import Kaleidoscope.Proofs.Number.ReadBack
import Kaleidoscope.Proofs.Pattern

/-!
# Decimals in numerals

A decimal is a text of digits that may have a dot between them or on one side, and reads as the
double nearest to it. The main statement is that a numeral has the value of the longest decimal at
its front, which is also the one that a pattern of two alternatives prefers, and is zero if there is
none.
-/

namespace Kaleidoscope.Numeral

/-- Whether a text is a decimal. -/
inductive IsDecimal : List Char → Prop where
  /-- Digits. -/
  | whole {digits : List Char} (hne : digits ≠ []) (hdigits : ∀ c ∈ digits, c.isDigit = true) :
    IsDecimal digits
  /-- Digits, a dot, and possibly more digits. -/
  | point {front back : List Char} (hne : front ≠ []) (hfront : ∀ c ∈ front, c.isDigit = true)
    (hback : ∀ c ∈ back, c.isDigit = true) : IsDecimal (front ++ '.' :: back)
  /-- A dot and digits. -/
  | fraction {back : List Char} (hne : back ≠ []) (hback : ∀ c ∈ back, c.isDigit = true) :
    IsDecimal ('.' :: back)

/-- Whether a text of digits and dots reads as a double: it has a digit and no more than one dot,
and the double is the nearest one to the natural number of all its digits, divided by ten for each
digit behind the dot. -/
inductive Reads : List Char → Double → Prop where
  /-- There is no dot. -/
  | whole {digits : List Char} {double : Double} (hne : digits ≠ [])
    (hdigits : ∀ c ∈ digits, c.isDigit = true)
    (hnearest : double.IsNearest (natural digits) 1) : Reads digits double
  /-- There is one. -/
  | point {front back : List Char} {double : Double} (hne : front ++ back ≠ [])
    (hfront : ∀ c ∈ front, c.isDigit = true) (hback : ∀ c ∈ back, c.isDigit = true)
    (hnearest : double.IsNearest (natural (front ++ back)) (10 ^ back.length)) :
    Reads (front ++ '.' :: back) double

/-- The pattern of decimals: digits, possibly a dot, and more digits, or else a dot and digits. -/
def pattern : Pattern :=
  .either
    (.both (.one Char.isDigit) (.both (.many Char.isDigit)
      (.both (.possibly (.one (· = '.'))) (.many Char.isDigit))))
    (.both (.one (· = '.')) (.both (.one Char.isDigit) (.many Char.isDigit)))

/-- What a numeral has in front of its second dot. -/
inductive IsOpening : List Char → List Char → Prop where
  /-- There is no dot. -/
  | digits {digits : List Char} (hdigits : ∀ c ∈ digits, c.isDigit = true) :
    IsOpening digits digits
  /-- There is one dot. -/
  | point {front middle : List Char} (hfront : ∀ c ∈ front, c.isDigit = true)
    (hmiddle : ∀ c ∈ middle, c.isDigit = true) :
    IsOpening (front ++ '.' :: middle) (front ++ '.' :: middle)
  /-- There are several. -/
  | points {front middle : List Char} (hfront : ∀ c ∈ front, c.isDigit = true)
    (hmiddle : ∀ c ∈ middle, c.isDigit = true) (behind : List Char) :
    IsOpening (front ++ '.' :: middle) (front ++ '.' :: (middle ++ '.' :: behind))

variable {run text part : List Char} {double : Double}

/-- A dot ends digits. -/
theorem stops_dot (rest : List Char) : Stops Char.isDigit ('.' :: rest) := stops_cons rfl rest

/-- A decimal reads as its value. -/
theorem IsDecimal.reads_value (h : IsDecimal text) : Reads text (value text) := by
  have hten : ∀ n, 0 < 10 ^ n := fun n => Nat.pow_pos (by decide)
  cases h with
  | whole hne hdigits =>
    rw [value_of_digits hdigits]
    exact .whole hne hdigits (Double.isNearest_nearest _ Nat.one_pos)
  | point hne hfront hback =>
    rw [value_of_point hfront hback]
    exact .point (List.append_ne_nil_of_left_ne_nil hne _) hfront hback
      (Double.isNearest_nearest _ (hten _))
  | fraction hne hback =>
    have hfront := List.forall_mem_nil (fun c : Char => c.isDigit = true)
    have hvalue := value_of_point hfront hback
    rw [List.nil_append] at hvalue
    rw [hvalue]
    exact @Reads.point [] _ _ hne hfront hback (Double.isNearest_nearest _ (hten _))

/-- What a text reads as is its value. -/
theorem Reads.eq_value (h : Reads text double) : double = value text := by
  cases h with
  | whole hne hdigits hnearest =>
    rw [value_of_digits hdigits]
    exact hnearest.unique Nat.one_pos (Double.isNearest_nearest _ Nat.one_pos)
  | @point front back _ hne hfront hback hnearest =>
    have hten : 0 < 10 ^ back.length := Nat.pow_pos (by decide)
    rw [value_of_point hfront hback]
    exact hnearest.unique hten (Double.isNearest_nearest _ hten)

/-- A decimal reads as its value, and as nothing else. -/
theorem IsDecimal.reads_iff (h : IsDecimal text) : Reads text double ↔ double = value text := by
  refine ⟨Reads.eq_value, ?_⟩
  rintro rfl
  exact h.reads_value

/-- A numeral is made of digits, or of digits in front of a dot and another numeral. -/
theorem isDigit_or_exists_dot (hrun : ∀ c ∈ run, isPart c = true) :
    (∀ c ∈ run, c.isDigit = true) ∨
      ∃ front rest, run = front ++ '.' :: rest ∧ (∀ c ∈ front, c.isDigit = true) ∧
        ∀ c ∈ rest, isPart c = true := by
  have hwhole := List.takeWhile_append_dropWhile (p := Char.isDigit) (l := run)
  have hstops := stops_dropWhile Char.isDigit run
  cases hdrop : run.dropWhile Char.isDigit with
  | nil => exact .inl (List.dropWhile_eq_nil_iff.1 hdrop)
  | cons c rest =>
    rw [hdrop] at hwhole hstops
    have hback : ∀ d ∈ c :: rest, isPart d = true := fun d hd =>
      hrun d (hwhole ▸ List.mem_append_right _ hd)
    obtain ⟨hc, hrest⟩ := List.forall_mem_cons.1 hback
    rw [isPart, hstops c rfl, Bool.false_or] at hc
    obtain rfl : c = '.' := of_decide_eq_true hc
    exact .inr ⟨_, rest, hwhole.symm, fun d hd => List.mem_takeWhile_imp hd, hrest⟩

/-- Every numeral has something in front of its second dot. -/
theorem exists_isOpening (hrun : ∀ c ∈ run, isPart c = true) : ∃ part, IsOpening part run := by
  rcases isDigit_or_exists_dot hrun with hdigits | ⟨front, rest, rfl, hfront, hrest⟩
  · exact ⟨run, .digits hdigits⟩
  · rcases isDigit_or_exists_dot hrest with hmiddle | ⟨middle, behind, rfl, hmiddle, _⟩
    · exact ⟨_, .point hfront hmiddle⟩
    · exact ⟨_, .points hfront hmiddle behind⟩

/-- There is no dot in digits. -/
theorem count_dot_of_digits {digits : List Char} (hdigits : ∀ c ∈ digits, c.isDigit = true) :
    digits.count '.' = 0 := by
  refine List.count_eq_zero.2 fun hmem => ?_
  cases hdigits '.' hmem

/-- There is one dot in digits around one. -/
theorem count_dot_of_point {front back : List Char} (hfront : ∀ c ∈ front, c.isDigit = true)
    (hback : ∀ c ∈ back, c.isDigit = true) : (front ++ '.' :: back).count '.' = 1 := by
  rw [List.count_append, List.count_cons_self, count_dot_of_digits hfront,
    count_dot_of_digits hback]

/-- There is no second dot in a decimal. -/
theorem IsDecimal.count_dot_le (h : IsDecimal text) : text.count '.' ≤ 1 := by
  cases h with
  | whole _ hdigits =>
    rw [count_dot_of_digits hdigits]
    exact Nat.zero_le 1
  | point _ hfront hback => exact Nat.le_of_eq (count_dot_of_point hfront hback)
  | @fraction back _ hback =>
    exact Nat.le_of_eq (@count_dot_of_point [] back (List.forall_mem_nil _) hback)

/-- There is a digit in a decimal. -/
theorem IsDecimal.exists_digit (h : IsDecimal text) : ∃ c ∈ text, c.isDigit = true := by
  have hfirst : ∀ {digits : List Char}, digits ≠ [] → (∀ c ∈ digits, c.isDigit = true) →
      ∃ c ∈ digits, c.isDigit = true := by
    intro digits hne hdigits
    obtain ⟨c, hc⟩ := List.exists_mem_of_ne_nil _ hne
    exact ⟨c, hc, hdigits c hc⟩
  cases h with
  | whole hne hdigits => exact hfirst hne hdigits
  | point hne hfront _ =>
    obtain ⟨c, hmem, hc⟩ := hfirst hne hfront
    exact ⟨c, List.mem_append_left _ hmem, hc⟩
  | fraction hne hback =>
    obtain ⟨c, hmem, hc⟩ := hfirst hne hback
    exact ⟨c, List.mem_cons_of_mem _ hmem, hc⟩

/-- Behind a digit the pattern goes on with all digits, and with what is preferred behind them. -/
theorem prefers_digits {c : Char} {front behind next back : List Char} (hc : c.isDigit = true)
    (hfront : ∀ d ∈ front, d.isDigit = true) (hbehind : Stops Char.isDigit behind)
    (htail : Pattern.Prefers (.both (.possibly (.one (· = '.'))) (.many Char.isDigit)) behind next
      back) : pattern.Prefers (c :: (front ++ behind)) (c :: (front ++ next)) back :=
  ((Pattern.prefers_one hc _).both ((Pattern.prefers_many hfront hbehind).both htail)).either

/-- Behind the first digits a dot and all digits are preferred. -/
theorem prefers_tail {middle behind : List Char} (hmiddle : ∀ c ∈ middle, c.isDigit = true)
    (hbehind : Stops Char.isDigit behind) :
    Pattern.Prefers (.both (.possibly (.one (· = '.'))) (.many Char.isDigit))
      ('.' :: (middle ++ behind)) ('.' :: middle) behind :=
  (Pattern.prefers_one (decide_eq_true rfl) _).possibly.both
    (Pattern.prefers_many hmiddle hbehind)

/-- At the end of the text nothing is preferred behind the first digits. -/
theorem prefers_tail_nil :
    Pattern.Prefers (.both (.possibly (.one (· = '.'))) (.many Char.isDigit)) [] [] [] :=
  (Pattern.prefers_possibly_nil rfl).both
    (Pattern.prefers_many (List.forall_mem_nil _) (stops_nil _))

/-- Where the first character is no digit, only the second alternative matches. -/
theorem splits_pattern (h : Stops Char.isDigit text) :
    pattern.splits text = Pattern.splits
      (.both (.one (· = '.')) (.both (.one Char.isDigit) (.many Char.isDigit))) text :=
  Pattern.splits_either_of_eq_nil (Pattern.splits_both_eq_nil (Pattern.splits_one_eq_nil h))

/-- The pattern matches a dot and digits. -/
theorem prefers_fraction {c : Char} {middle behind : List Char} (hc : c.isDigit = true)
    (hmiddle : ∀ c ∈ middle, c.isDigit = true) (hbehind : Stops Char.isDigit behind) :
    pattern.Prefers ('.' :: c :: (middle ++ behind)) ('.' :: c :: middle) behind := by
  rw [Pattern.prefers_iff, splits_pattern (stops_dot _)]
  exact (Pattern.prefers_one (decide_eq_true rfl) _).both
    ((Pattern.prefers_one hc _).both (Pattern.prefers_many hmiddle hbehind))

/-- The pattern does not match a dot without a digit behind it. -/
theorem find?_dot (h : Stops Char.isDigit text) : pattern.find? ('.' :: text) = none := by
  apply Pattern.find?_of_splits_eq_nil
  rw [splits_pattern (stops_dot _)]
  exact Pattern.splits_one_both_eq_nil
    (Pattern.splits_both_eq_nil (Pattern.splits_one_eq_nil h))

/-- A decimal with a dot is found in front of what begins with no digit. -/
theorem find?_point {front middle behind : List Char} (hfront : ∀ c ∈ front, c.isDigit = true)
    (hmiddle : ∀ c ∈ middle, c.isDigit = true) (hbehind : Stops Char.isDigit behind)
    (hdigit : ∃ c ∈ front ++ '.' :: middle, c.isDigit = true) :
    pattern.find? (front ++ '.' :: (middle ++ behind)) = some (front ++ '.' :: middle) := by
  cases front with
  | cons c front =>
    obtain ⟨hc, hfront⟩ := List.forall_mem_cons.1 hfront
    exact (prefers_digits hc hfront (stops_dot _) (prefers_tail hmiddle hbehind)).find?_eq
  | nil =>
    cases middle with
    | cons c middle =>
      obtain ⟨hc, hmiddle⟩ := List.forall_mem_cons.1 hmiddle
      exact (prefers_fraction hc hmiddle hbehind).find?_eq
    | nil =>
      obtain ⟨c, hmem, hc⟩ := hdigit
      obtain rfl := List.mem_singleton.1 hmem
      cases hc

namespace IsOpening

/-- What follows the second dot does not affect the value. -/
theorem value_eq (h : IsOpening part run) : value run = value part := by
  cases h with
  | digits | point => rfl
  | points hfront hmiddle behind =>
    rw [value_of_points hfront hmiddle (stops_dot behind), value_of_point hfront hmiddle]

/-- The numeral begins with the opening. -/
theorem exists_behind (h : IsOpening part run) : ∃ behind, run = part ++ behind := by
  cases h with
  | digits | point => exact ⟨[], (List.append_nil _).symm⟩
  | @points front middle _ _ behind =>
    exact ⟨'.' :: behind, (List.append_assoc front ('.' :: middle) ('.' :: behind)).symm⟩

/-- With a digit in it the opening is a decimal. -/
theorem isDecimal (h : IsOpening part run) (hdigit : ∃ c ∈ part, c.isDigit = true) :
    IsDecimal part := by
  obtain ⟨c, hmem, hc⟩ := hdigit
  have hpoint : ∀ {front middle : List Char}, (∀ c ∈ front, c.isDigit = true) →
      (∀ c ∈ middle, c.isDigit = true) → c ∈ front ++ '.' :: middle →
        IsDecimal (front ++ '.' :: middle) := by
    intro front middle hfront hmiddle hmem
    cases front with
    | cons d front => exact .point (List.cons_ne_nil d front) hfront hmiddle
    | nil =>
      rcases List.mem_cons.1 hmem with rfl | hmem
      · cases hc
      · exact .fraction (List.ne_nil_of_mem hmem) hmiddle
  cases h with
  | digits hdigits => exact .whole (List.ne_nil_of_mem hmem) hdigits
  | point hfront hmiddle => exact hpoint hfront hmiddle hmem
  | points hfront hmiddle _ => exact hpoint hfront hmiddle hmem

/-- Every decimal at the front of the numeral is at the front of the opening. -/
theorem exists_append (h : IsOpening part run) (htext : IsDecimal text) {behind : List Char}
    (hrun : run = text ++ behind) : ∃ rest, part = text ++ rest := by
  cases h with
  | digits | point => exact ⟨behind, hrun⟩
  | @points front middle hfront hmiddle others =>
    have hsplit : text ++ behind = (front ++ '.' :: middle) ++ '.' :: others := by
      rw [← hrun, List.append_assoc]
      rfl
    rcases List.append_eq_append_iff.1 hsplit with ⟨rest, hpart, _⟩ | ⟨rest, htext', hrest⟩
    · exact ⟨rest, hpart⟩
    · cases rest with
      | nil => exact ⟨[], by rw [htext', List.append_nil, List.append_nil]⟩
      | cons c rest =>
        -- A decimal that goes on behind the opening has the second dot.
        obtain ⟨rfl, _⟩ := List.cons.inj hrest
        have hcount := htext.count_dot_le
        rw [htext', List.count_append, count_dot_of_point hfront hmiddle, List.count_cons_self]
          at hcount
        omega

/-- The pattern finds the opening if there is a digit in it. -/
theorem find?_eq (h : IsOpening part run) (hdigit : ∃ c ∈ part, c.isDigit = true) :
    pattern.find? run = some part := by
  cases h with
  | digits hdigits =>
    cases run with
    | nil =>
      obtain ⟨_, hmem, _⟩ := hdigit
      cases hmem
    | cons c rest =>
      obtain ⟨hc, hrest⟩ := List.forall_mem_cons.1 hdigits
      have hprefers := prefers_digits hc hrest (stops_nil _) prefers_tail_nil
      rw [List.append_nil] at hprefers
      exact hprefers.find?_eq
  | @point front middle hfront hmiddle =>
    have hfind := find?_point hfront hmiddle (stops_nil _) hdigit
    rwa [List.append_nil] at hfind
  | points hfront hmiddle behind => exact find?_point hfront hmiddle (stops_dot behind) hdigit

/-- An opening without a digit is empty or a dot. -/
theorem eq_of_forall (h : IsOpening part run) (hnone : ∀ c ∈ part, c.isDigit = false) :
    (part = [] ∧ run = []) ∨
      part = ['.'] ∧ ∃ rest, run = '.' :: rest ∧ Stops Char.isDigit rest := by
  have hempty : ∀ {digits : List Char}, (∀ c ∈ digits, c.isDigit = true) →
      (∀ c ∈ digits, c.isDigit = false) → digits = [] := by
    intro digits hdigits hnone
    refine List.eq_nil_iff_forall_not_mem.2 fun c hc => ?_
    exact Bool.false_ne_true ((hnone c hc).symm.trans (hdigits c hc))
  have hpoint : ∀ {front middle : List Char}, (∀ c ∈ front, c.isDigit = true) →
      (∀ c ∈ middle, c.isDigit = true) → (∀ c ∈ front ++ '.' :: middle, c.isDigit = false) →
        front = [] ∧ middle = [] := by
    intro front middle hfront hmiddle hnone
    exact ⟨hempty hfront fun c hc => hnone c (List.mem_append_left _ hc),
      hempty hmiddle fun c hc => hnone c (List.mem_append_right _ (List.mem_cons_of_mem _ hc))⟩
  cases h with
  | digits hdigits => exact .inl ⟨hempty hdigits hnone, hempty hdigits hnone⟩
  | point hfront hmiddle =>
    obtain ⟨rfl, rfl⟩ := hpoint hfront hmiddle hnone
    exact .inr ⟨rfl, [], rfl, stops_nil _⟩
  | points hfront hmiddle behind =>
    obtain ⟨rfl, rfl⟩ := hpoint hfront hmiddle hnone
    exact .inr ⟨rfl, _, rfl, stops_dot behind⟩

/-- The pattern finds nothing if there is no digit in the opening. -/
theorem find?_eq_none (h : IsOpening part run) (hnone : ∀ c ∈ part, c.isDigit = false) :
    pattern.find? run = none := by
  rcases h.eq_of_forall hnone with ⟨_, rfl⟩ | ⟨_, rest, rfl, hstops⟩
  · rfl
  · exact find?_dot hstops

/-- Where there is no digit in the opening the value is zero. -/
theorem value_eq_zero (h : IsOpening part run) (hnone : ∀ c ∈ part, c.isDigit = false) :
    value run = .zero := by
  have hzero : Double.nearest 0 1 = .zero :=
    congrArg (Double.mk false) (Fin.ext (Double.nearestRank_zero Nat.one_pos))
  rw [h.value_eq]
  rcases h.eq_of_forall hnone with ⟨rfl, _⟩ | ⟨rfl, _⟩
  · exact hzero
  · exact hzero

end IsOpening

/-- Every numeral is cut as one number, its value, and this is the number that the longest decimal
at the front of the numeral reads as, which is also what the pattern finds; if there is no decimal
at the front, the pattern finds nothing, and the value is zero. In other words, there is a part in
front of the second dot, or all of the numeral if there is no second dot, and what follows this part
has no effect. What the pattern finds reads as a number whenever it finds something, and it finds
nothing if and only if there is no digit in this part. -/
theorem value_of_longest {run : List Char} (hne : run ≠ []) (hrun : ∀ c ∈ run, isPart c = true) :
    Token.ofString (String.ofList run) = [.number (value run)] ∧
    ((∃ text behind, run = text ++ behind ∧ IsDecimal text ∧
        (∀ other rest, run = other ++ rest → IsDecimal other → other.length ≤ text.length) ∧
        pattern.find? run = some text ∧ ∀ double, Reads text double ↔ double = value run) ∨
      (∀ text behind, run = text ++ behind → ¬IsDecimal text) ∧
        pattern.find? run = none ∧ value run = .zero) ∧
    ∃ part, IsOpening part run ∧ (∀ other, IsOpening part other → value other = value run) ∧
      ((∀ text, pattern.find? run = some text → ∀ double, ¬Reads text double) ↔
        ∀ c ∈ part, c.isDigit = false) := by
  obtain ⟨part, hpart⟩ := exists_isOpening hrun
  have htoken : Token.ofString (String.ofList run) = [.number (value run)] := by
    have hlexes := Lexes.numeral hne hrun breaks_nil .nil
    rw [List.append_nil] at hlexes
    refine Lexes.ofString ?_
    rw [String.toList_ofList]
    exact hlexes
  have hsame : ∀ other, IsOpening part other → value other = value run :=
    fun other hother => hother.value_eq.trans hpart.value_eq.symm
  by_cases hdigit : ∃ c ∈ part, c.isDigit = true
  · have hfind := hpart.find?_eq hdigit
    have hdecimal := hpart.isDecimal hdigit
    obtain ⟨behind, hbehind⟩ := hpart.exists_behind
    refine ⟨htoken, .inl ⟨part, behind, hbehind, hdecimal, ?_, hfind, ?_⟩, part, hpart, hsame,
      fun hnone => ?_, fun hnone => ?_⟩
    · intro other rest hother hdecimal'
      obtain ⟨more, rfl⟩ := hpart.exists_append hdecimal' hother
      rw [List.length_append]
      exact Nat.le_add_right _ _
    · intro double
      rw [hdecimal.reads_iff, hpart.value_eq]
    · exact absurd hdecimal.reads_value (hnone part hfind _)
    · obtain ⟨c, hmem, hc⟩ := hdigit
      exact absurd (hnone c hmem) (Bool.not_eq_false _ ▸ hc)
  · have hnone : ∀ c ∈ part, c.isDigit = false := fun c hmem =>
      Bool.eq_false_iff.2 fun hc => hdigit ⟨c, hmem, hc⟩
    have hfind := hpart.find?_eq_none hnone
    refine ⟨htoken, .inr ⟨?_, hfind, hpart.value_eq_zero hnone⟩, part, hpart, hsame,
      fun _ => hnone, fun _ text htext => ?_⟩
    · intro text behind hrun hdecimal
      obtain ⟨rest, rfl⟩ := hpart.exists_append hdecimal hrun
      obtain ⟨c, hmem, hc⟩ := hdecimal.exists_digit
      exact hdigit ⟨c, List.mem_append_left _ hmem, hc⟩
    · rw [hfind] at htext
      cases htext

/-- Of a seven, two dots and a one the seven and the first dot count. Of two dots and a five nothing
does. -/
theorem value_of_longest_of_dots :
    let seven := ['7', '.', '.', '1']
    let none := ['.', '.', '5']
    seven ≠ [] ∧ (∀ c ∈ seven, isPart c = true) ∧ none ≠ [] ∧ (∀ c ∈ none, isPart c = true) ∧
      pattern.find? seven = some ['7', '.'] ∧ (∀ double, Reads ['7', '.'] double ↔
        double = value seven) ∧
      Token.ofString (String.ofList none) = [.number .zero] := by
  intro seven none
  have hseven : ∀ c ∈ seven, isPart c = true := List.all_eq_true.1 rfl
  have hnone : ∀ c ∈ none, isPart c = true := List.all_eq_true.1 rfl
  have hfind : pattern.find? seven = some ['7', '.'] := rfl
  refine ⟨List.cons_ne_nil _ _, hseven, List.cons_ne_nil _ _, hnone, hfind, ?_, ?_⟩
  · obtain ⟨_, ⟨text, _, _, _, _, htext, hreads⟩ | ⟨_, hnothing, _⟩, _⟩ :=
      value_of_longest (List.cons_ne_nil _ _) hseven
    · rw [hfind] at htext
      cases htext
      exact hreads
    · rw [hfind] at hnothing
      cases hnothing
  · obtain ⟨htoken, ⟨_, _, _, _, _, htext, _⟩ | ⟨_, _, hzero⟩, _⟩ :=
      value_of_longest (List.cons_ne_nil _ _) hnone
    · cases htext
    · rw [htoken, hzero]

end Kaleidoscope.Numeral
