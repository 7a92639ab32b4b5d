import Kaleidoscope.Number.Shortest
import Mathlib.Tactic.Linarith
import Mathlib.Tactic.Ring

/-!
# Rounding

Every rank is a number of whole doublings and a leading part below two doublings, and its magnitude
is the leading part shifted by the doublings. The main statement is that a fraction between the
midpoints next to a rank is rounded to the rank; on a midpoint it has to be even.
-/

namespace Kaleidoscope.Double

/-- A quotient that lies within half a step of a natural number is rounded to it; half a step away
it has to be even. -/
theorem roundToEven_eq {numerator denominator n : Nat} (hpos : 0 < denominator)
    (hlow : 2 * n * denominator ≤ 2 * numerator + denominator)
    (hhigh : 2 * numerator ≤ 2 * n * denominator + denominator)
    (hodd : n % 2 = 1 → 2 * n * denominator < 2 * numerator + denominator ∧
      2 * numerator < 2 * n * denominator + denominator) :
    roundToEven numerator denominator = n := by
  have hdivision := Nat.div_add_mod numerator denominator
  have hremainder := Nat.mod_lt numerator hpos
  unfold roundToEven
  dsimp only
  generalize numerator / denominator = quotient at *
  generalize numerator % denominator = remainder at *
  have hle : quotient < n + 1 := by
    by_contra hlt
    have hmul := Nat.mul_le_mul_left denominator (Nat.not_lt.1 hlt)
    nlinarith
  have hge : n < quotient + 2 := by
    by_contra hlt
    have hmul := Nat.mul_le_mul_left denominator (Nat.not_lt.1 hlt)
    nlinarith
  have hcases : quotient = n ∨ quotient + 1 = n := by omega
  rcases hcases with rfl | rfl
  · have hmul : 2 * quotient * denominator = 2 * (denominator * quotient) := by ring
    rw [hmul] at hlow hhigh hodd
    rw [if_neg]
    rintro (hlt | ⟨hhalf, hquotient⟩)
    · omega
    · have hstrict := (hodd hquotient).2
      omega
  · have hmul : 2 * (quotient + 1) * denominator =
        2 * (denominator * quotient) + 2 * denominator := by ring
    rw [hmul] at hlow hhigh hodd
    split
    · rfl
    · next hnot =>
      exfalso
      apply hnot
      by_cases hhalf : 2 * remainder = denominator
      · refine .inr ⟨hhalf, ?_⟩
        by_contra heven
        have hstrict := (hodd (by omega)).1
        omega
      · omega

/-- There are ranks in every doubling. -/
theorem doubling_pos : 0 < doubling := by decide

/-- A rank as a number of whole doublings and a leading part. -/
structure Scaled (rank doublings leading : Nat) : Prop where
  /-- The rank is their sum. -/
  rank_eq : rank = doublings * doubling + leading
  /-- The leading part is below two doublings. -/
  leading_lt : leading < 2 * doubling
  /-- It is at least one doubling, unless the rank is lower. -/
  le_leading : doublings = 0 ∨ doubling ≤ leading

/-- Every rank has a leading part. -/
theorem exists_scaled (rank : Nat) : ∃ doublings leading, Scaled rank doublings leading := by
  by_cases h : rank < doubling
  · refine ⟨0, rank, ?_, ?_, .inl rfl⟩
    · omega
    · omega
  · have hdivision := Nat.div_add_mod' rank doubling
    have hremainder := Nat.mod_lt rank doubling_pos
    have hquotient : 1 ≤ rank / doubling :=
      (Nat.one_le_div_iff doubling_pos).2 (Nat.not_lt.1 h)
    obtain ⟨doublings, hdoublings⟩ := Nat.exists_eq_add_of_le' hquotient
    refine ⟨doublings, doubling + rank % doubling, ?_, ?_, .inr ?_⟩
    · rw [hdoublings, Nat.succ_mul] at hdivision
      omega
    · omega
    · omega

namespace Scaled

variable {rank doublings leading : Nat}

/-- The magnitude of a rank is its leading part shifted by the doublings. -/
theorem magnitude_eq (h : Scaled rank doublings leading) :
    magnitude rank = leading * 2 ^ doublings := by
  obtain ⟨rfl, hlt, hle⟩ := h
  unfold magnitude
  by_cases hsmall : leading < doubling
  · obtain rfl : doublings = 0 := by omega
    rw [if_pos (by omega)]
    omega
  · obtain ⟨rest, rfl⟩ := Nat.exists_eq_add_of_le (Nat.not_lt.1 hsmall)
    have hrest : rest < doubling := by omega
    have hrank : doublings * doubling + (doubling + rest) = (doublings + 1) * doubling + rest := by
      ring
    rw [hrank, if_neg, Nat.mul_add_mod', Nat.mod_eq_of_lt hrest,
      Nat.add_comm ((doublings + 1) * doubling), Nat.add_mul_div_right _ _ doubling_pos,
      Nat.div_eq_of_lt hrest, Nat.shiftLeft_eq]
    · congr 2
      omega
    · rw [Nat.succ_mul]
      omega

/-- From a rank to the next one the magnitude grows by one step of its doublings. -/
theorem magnitude_succ (h : Scaled rank doublings leading) :
    magnitude (rank + 1) = (leading + 1) * 2 ^ doublings := by
  obtain ⟨hrank, hlt, hle⟩ := h
  by_cases hlast : leading + 1 < 2 * doubling
  · have hnext : Scaled (rank + 1) doublings (leading + 1) := ⟨by omega, hlast, by omega⟩
    exact hnext.magnitude_eq
  · have hnext : Scaled (rank + 1) (doublings + 1) doubling := by
      refine ⟨?_, by omega, .inr (Nat.le_refl _)⟩
      rw [Nat.succ_mul]
      omega
    have hleading : leading + 1 = 2 * doubling := by omega
    rw [hnext.magnitude_eq, hleading]
    ring

/-- Below the lowest rank of a doubling the magnitude grows by half a step. -/
theorem magnitude_pred (h : Scaled rank (doublings + 1) doubling) :
    magnitude (rank - 1) = (2 * doubling - 1) * 2 ^ doublings := by
  have hpos := doubling_pos
  have hprevious : Scaled (rank - 1) doublings (2 * doubling - 1) := by
    refine ⟨?_, by omega, .inr (by omega)⟩
    rw [h.rank_eq, Nat.succ_mul]
    omega
  exact hprevious.magnitude_eq

/-- The magnitude grows by no more than a step of the doublings. -/
theorem le_magnitude_pred (h : Scaled rank doublings leading) (hrank : 0 < rank) :
    leading * 2 ^ doublings ≤ magnitude (rank - 1) + 2 ^ doublings := by
  obtain ⟨hsum, hlt, hle⟩ := id h
  by_cases hlowest : doublings ≠ 0 ∧ leading = doubling
  · obtain ⟨hdoublings, rfl⟩ := hlowest
    obtain ⟨doublings, rfl⟩ := Nat.exists_eq_succ_of_ne_zero hdoublings
    rw [h.magnitude_pred, Nat.pow_succ]
    have hmul : (2 * doubling - 1) * 2 ^ doublings + 2 ^ doublings =
        doubling * (2 ^ doublings * 2) := by
      obtain ⟨rest, hrest⟩ := Nat.exists_eq_add_of_lt doubling_pos
      rw [hrest]
      have hsub : 2 * (0 + rest + 1) - 1 = 2 * rest + 1 := by omega
      rw [hsub]
      ring
    omega
  · obtain ⟨rest, rfl⟩ : ∃ rest, leading = rest + 1 :=
      Nat.exists_eq_add_of_le' (by
        rcases Nat.eq_zero_or_pos doublings with rfl | hdoublings
        · omega
        · omega)
    have hprevious : Scaled (rank - 1) doublings rest := ⟨by omega, by omega, by omega⟩
    rw [hprevious.magnitude_eq, Nat.succ_mul]

/-- A rank is even when its leading part is. -/
theorem mod_two (h : Scaled rank doublings leading) : rank % 2 = leading % 2 := by
  have hsum := h.rank_eq
  unfold doubling at hsum
  omega

end Scaled

/-- Magnitudes grow with the ranks. -/
theorem magnitude_lt_succ (rank : Nat) : magnitude rank < magnitude (rank + 1) := by
  obtain ⟨doublings, leading, h⟩ := exists_scaled rank
  rw [h.magnitude_eq, h.magnitude_succ]
  exact Nat.mul_lt_mul_of_pos_right (Nat.lt_succ_self _) (Nat.two_pow_pos _)

/-- A fraction from the lowest leading part of a number of doublings on, and below the highest, is
rounded with that many doublings. -/
theorem nearestRank_eq_min {numerator denominator doublings : Nat} (hpos : 0 < denominator)
    (hlow : doublings = 0 ∨ doubling * 2 ^ doublings * denominator ≤ numerator <<< 1074)
    (hhigh : numerator <<< 1074 < 2 * doubling * 2 ^ doublings * denominator) :
    nearestRank numerator denominator = min infinityRank
      (doublings * doubling + roundToEven (numerator <<< 1074) (denominator * 2 ^ doublings)) := by
  have hdoubling : doubling = 2 ^ 52 := rfl
  rw [nearestRank]
  generalize numerator <<< 1074 = scaled at *
  have hlog : (scaled / denominator).log2 - 52 = doublings := by
    have hlt : scaled / denominator < 2 ^ (52 + doublings + 1) := by
      rw [Nat.div_lt_iff_lt_mul hpos]
      have hpow : 2 * doubling * 2 ^ doublings = 2 ^ (52 + doublings + 1) := by
        rw [hdoubling]
        ring
      rwa [hpow] at hhigh
    by_cases hzero : scaled / denominator = 0
    · rcases hlow with rfl | hlow
      · rw [hzero, Nat.log2_zero]
      · exfalso
        have hge := (Nat.le_div_iff_mul_le hpos).2 hlow
        have hpositive : 0 < doubling * 2 ^ doublings :=
          Nat.mul_pos doubling_pos (Nat.two_pow_pos _)
        omega
    · have hupper := (Nat.log2_lt hzero).2 hlt
      rcases hlow with rfl | hlow
      · omega
      · have hge := (Nat.le_div_iff_mul_le hpos).2 hlow
        rw [hdoubling, ← Nat.pow_add] at hge
        have hlower := (Nat.le_log2 hzero).2 hge
        omega
  rw [hlog, Nat.shiftLeft_eq]

/-- A fraction that is not below the doublings of a rank, and between the midpoints next to it, is
rounded to the rank. -/
theorem Scaled.nearestRank_of_le {rank doublings leading : Nat}
    (h : Scaled rank doublings leading) {numerator denominator : Nat} (hpos : 0 < denominator)
    (hrank : 0 < rank) (hfinite : rank ≤ infinityRank)
    (hle : doublings = 0 ∨ doubling * 2 ^ doublings * denominator ≤ numerator <<< 1074)
    (hlow : (magnitude (rank - 1) + magnitude rank) * denominator ≤ 2 * numerator <<< 1074)
    (hhigh : 2 * numerator <<< 1074 ≤ (magnitude rank + magnitude (rank + 1)) * denominator)
    (hodd : rank % 2 = 1 →
      (magnitude (rank - 1) + magnitude rank) * denominator < 2 * numerator <<< 1074 ∧
        2 * numerator <<< 1074 < (magnitude rank + magnitude (rank + 1)) * denominator) :
    nearestRank numerator denominator = rank := by
  have hpred := h.le_magnitude_pred hrank
  have hleading := h.leading_lt
  have hunit : 0 < denominator * 2 ^ doublings := Nat.mul_pos hpos (Nat.two_pow_pos _)
  rw [h.mod_two] at hodd
  rw [h.magnitude_succ, h.magnitude_eq] at hhigh hodd
  rw [h.magnitude_eq] at hlow
  have hupper : numerator <<< 1074 < 2 * doubling * 2 ^ doublings * denominator := by
    nlinarith
  rw [nearestRank_eq_min hpos hle hupper, roundToEven_eq hunit (n := leading), ← h.rank_eq,
    Nat.min_eq_right hfinite]
  · nlinarith
  · nlinarith
  · intro hleading
    obtain ⟨hlow', hhigh'⟩ := hodd hleading
    constructor
    · nlinarith
    · nlinarith

/-- A fraction that is below the doublings of a rank, and not below the midpoint under it, is
rounded to the rank: it is rounded up to the next doubling. -/
theorem Scaled.nearestRank_of_lt {rank doublings leading : Nat}
    (h : Scaled rank (doublings + 1) leading) {numerator denominator : Nat}
    (hpos : 0 < denominator) (hfinite : rank ≤ infinityRank)
    (hlt : numerator <<< 1074 < doubling * 2 ^ (doublings + 1) * denominator)
    (hlow : (magnitude (rank - 1) + magnitude rank) * denominator ≤ 2 * numerator <<< 1074) :
    nearestRank numerator denominator = rank := by
  have hunit : 0 < denominator * 2 ^ doublings := Nat.mul_pos hpos (Nat.two_pow_pos _)
  have hsum : rank = doublings * doubling + doubling + leading := by
    rw [h.rank_eq, Nat.succ_mul]
  obtain rfl : leading = doubling := by
    have hpositive := doubling_pos
    have hpred := h.le_magnitude_pred (by omega)
    have hle := h.le_leading.resolve_left (Nat.succ_ne_zero _)
    rw [h.magnitude_eq] at hlow
    rw [Nat.pow_succ] at *
    by_contra hne
    have hmore : doubling + 1 ≤ leading := by omega
    nlinarith
  rw [h.magnitude_pred, h.magnitude_eq] at hlow
  rw [Nat.pow_succ] at hlow hlt
  have hbelow : 2 * doubling - 1 + 1 = 2 * doubling := by
    have hpositive := doubling_pos
    omega
  generalize 2 * doubling - 1 = below at hlow hbelow
  have hlower : doubling * 2 ^ doublings * denominator ≤ numerator <<< 1074 := by
    nlinarith
  have hupper : numerator <<< 1074 < 2 * doubling * 2 ^ doublings * denominator := by
    nlinarith
  rw [nearestRank_eq_min hpos (.inr hlower) hupper, roundToEven_eq hunit (n := 2 * doubling)]
  · rw [Nat.add_assoc, ← Nat.two_mul] at hsum
    rw [← hsum, Nat.min_eq_right hfinite]
  · nlinarith
  · nlinarith
  · intro hleading
    omega

/-- A fraction between the midpoints next to a rank is rounded to the rank; on a midpoint it has to
be even. -/
theorem nearestRank_eq {numerator denominator rank : Nat} (hpos : 0 < denominator)
    (hrank : 0 < rank) (hfinite : rank ≤ infinityRank)
    (hlow : (magnitude (rank - 1) + magnitude rank) * denominator ≤ 2 * numerator <<< 1074)
    (hhigh : 2 * numerator <<< 1074 ≤ (magnitude rank + magnitude (rank + 1)) * denominator)
    (hodd : rank % 2 = 1 →
      (magnitude (rank - 1) + magnitude rank) * denominator < 2 * numerator <<< 1074 ∧
        2 * numerator <<< 1074 < (magnitude rank + magnitude (rank + 1)) * denominator) :
    nearestRank numerator denominator = rank := by
  obtain ⟨doublings, leading, h⟩ := exists_scaled rank
  by_cases hle : doublings = 0 ∨ doubling * 2 ^ doublings * denominator ≤ numerator <<< 1074
  · exact h.nearestRank_of_le hpos hrank hfinite hle hlow hhigh hodd
  · obtain ⟨hdoublings, hlt⟩ := not_or.1 hle
    obtain ⟨doublings, rfl⟩ := Nat.exists_eq_succ_of_ne_zero hdoublings
    exact h.nearestRank_of_lt hpos hfinite (Nat.not_le.1 hlt) hlow

/-- A decimal rounds to a rank when it lies between the midpoints, and on them only if the rank is
even. -/
theorem roundsTo_iff (rank decimal : Nat) :
    roundsTo rank decimal = true ↔
      midpoint (rank - 1) ≤ decimal ∧ decimal ≤ midpoint rank ∧
        (rank % 2 = 1 → midpoint (rank - 1) < decimal ∧ decimal < midpoint rank) := by
  unfold roundsTo
  split
  · next heven =>
    simp only [Bool.and_eq_true, decide_eq_true_eq]
    omega
  · next hodd =>
    simp only [Bool.and_eq_true, decide_eq_true_eq]
    omega

/-- A power of ten has as many factors two as factors five. -/
theorem mul_ten_pow_succ (n k : Nat) : n * 10 ^ (k + 1) = 2 * n <<< k * 5 ^ (k + 1) := by
  rw [show 10 = 2 * 5 from rfl, Nat.mul_pow, Nat.shiftLeft_eq, Nat.pow_succ 2]
  ring

/-- A power of five is positive. -/
theorem pow_five_pos (k : Nat) : 0 < Nat.pow 5 k := Nat.pow_pos (by omega)

/-- A decimal that rounds to a rank is rounded to it. -/
theorem nearestRank_of_roundsTo {rank decimal : Nat} (h : roundsTo rank decimal = true)
    (hrank : 0 < rank) (hfinite : rank ≤ infinityRank) {numerator denominator : Nat}
    (hpos : 0 < denominator) (heq : numerator * 10 ^ unitPlaces = decimal * denominator) :
    nearestRank numerator denominator = rank := by
  -- A length in decimal units is a power of five times twice the length in binary units.
  have hscale : 2 * numerator <<< 1074 * Nat.pow 5 unitPlaces = decimal * denominator := by
    have hplaces : unitPlaces = 1074 + 1 := rfl
    rw [← heq, hplaces]
    generalize 1074 = k
    exact (mul_ten_pow_succ numerator k).symm
  have hfive := pow_five_pos unitPlaces
  obtain ⟨hlow, hhigh, hodd⟩ := (roundsTo_iff rank decimal).1 h
  unfold midpoint at hlow hhigh hodd
  rw [Nat.sub_add_cancel hrank] at hlow hodd
  generalize Nat.pow 5 unitPlaces = five at *
  have hbelow : ∀ length, length * five ≤ decimal ↔
      length * denominator ≤ 2 * numerator <<< 1074 := by
    intro length
    rw [← Nat.mul_le_mul_right_iff hpos, ← hscale, Nat.mul_right_comm length,
      Nat.mul_le_mul_right_iff hfive]
  have habove : ∀ length, decimal ≤ length * five ↔
      2 * numerator <<< 1074 ≤ length * denominator := by
    intro length
    rw [← Nat.mul_le_mul_right_iff hpos, ← hscale, Nat.mul_right_comm length,
      Nat.mul_le_mul_right_iff hfive]
  refine nearestRank_eq hpos hrank hfinite ((hbelow _).1 hlow) ((habove _).1 hhigh) fun h => ?_
  obtain ⟨hlow', hhigh'⟩ := hodd h
  exact ⟨Nat.lt_of_not_le fun hle => Nat.not_le.2 hlow' ((habove _).2 hle),
    Nat.lt_of_not_le fun hle => Nat.not_le.2 hhigh' ((hbelow _).2 hle)⟩

/-- A number rounds to itself. -/
theorem roundsTo_units {rank : Nat} (hrank : 0 < rank) : roundsTo rank (units rank) = true := by
  have hfive := pow_five_pos unitPlaces
  have hpred := magnitude_lt_succ (rank - 1)
  have hsucc := magnitude_lt_succ rank
  rw [Nat.sub_add_cancel hrank] at hpred
  have hlow : midpoint (rank - 1) < units rank := by
    rw [midpoint, units, Nat.sub_add_cancel hrank]
    exact Nat.mul_lt_mul_of_pos_right (by omega) hfive
  have hhigh : units rank < midpoint rank := Nat.mul_lt_mul_of_pos_right (by omega) hfive
  exact (roundsTo_iff rank _).2 ⟨Nat.le_of_lt hlow, Nat.le_of_lt hhigh, fun _ => ⟨hlow, hhigh⟩⟩

/-- A point of a grid that is chosen rounds to the number. -/
theorem roundsTo_of_gridPoint? {rank step point : Nat} (h : gridPoint? rank step = some point) :
    roundsTo rank point = true := by
  unfold gridPoint? at h
  dsimp only at h
  split at h
  · next hbelow =>
    split at h
    · next habove =>
      cases h
      exact (Bool.and_eq_true_iff.1 habove).1
    · cases h
      exact hbelow
  · split at h
    · next habove =>
      cases h
      exact habove
    · cases h

/-- The decimal from the coarsest grid rounds to the number. -/
theorem roundsTo_coarsest {rank : Nat} (hrank : 0 < rank) (exponent : Nat) :
    roundsTo rank (coarsest rank exponent) = true := by
  induction exponent with
  | zero => exact roundsTo_units hrank
  | succ exponent ih =>
    rw [coarsest]
    cases hpoint : gridPoint? rank (Nat.pow 10 (exponent + 1)) with
    | none => exact ih
    | some point => exact roundsTo_of_gridPoint? hpoint

/-- The shortest decimal rounds to the number. -/
theorem roundsTo_shortest {rank : Nat} (hrank : 0 < rank) :
    roundsTo rank (shortest rank) = true := by
  rw [shortest, if_neg (Nat.pos_iff_ne_zero.1 hrank)]
  exact roundsTo_coarsest hrank _

/-- What is not more than half a step above zero is rounded to the lowest rank. -/
theorem nearestRank_of_le_half {numerator denominator : Nat} (hpos : 0 < denominator)
    (h : 2 * numerator <<< 1074 ≤ denominator) : nearestRank numerator denominator = 0 := by
  have hdoubling := doubling_pos
  have hupper : numerator <<< 1074 < 2 * doubling * 2 ^ 0 * denominator := by
    rw [Nat.pow_zero, Nat.mul_one]
    nlinarith
  rw [nearestRank_eq_min hpos (.inl rfl) hupper, Nat.pow_zero, Nat.mul_one,
    roundToEven_eq (n := 0) hpos, Nat.zero_mul, Nat.add_zero, Nat.min_zero]
  · omega
  · omega
  · omega

/-- The nearest rank to zero is zero. -/
theorem nearestRank_zero {denominator : Nat} (hpos : 0 < denominator) :
    nearestRank 0 denominator = 0 := by
  have hzero : 0 <<< 1074 = 0 := Nat.zero_shiftLeft 1074
  refine nearestRank_of_le_half hpos ?_
  rw [hzero]
  exact Nat.zero_le _

/-- The shortest decimal of a finite rank is rounded to the rank. -/
theorem nearestRank_shortest {rank : Nat} (hfinite : rank ≤ infinityRank)
    {numerator denominator : Nat} (hpos : 0 < denominator)
    (heq : numerator * 10 ^ unitPlaces = shortest rank * denominator) :
    nearestRank numerator denominator = rank := by
  rcases Nat.eq_zero_or_pos rank with rfl | hrank
  · rw [shortest, if_pos rfl, Nat.zero_mul] at heq
    have hnumerator : numerator = 0 := by
      refine (Nat.mul_eq_zero.1 heq).resolve_right fun hten => ?_
      have hzero := (Nat.pow_eq_zero.1 hten).1
      omega
    rw [hnumerator]
    exact nearestRank_zero hpos
  · exact nearestRank_of_roundsTo (roundsTo_shortest hrank) hrank hfinite hpos heq

end Kaleidoscope.Double
