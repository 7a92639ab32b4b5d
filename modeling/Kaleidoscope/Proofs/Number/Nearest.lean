import Kaleidoscope.Proofs.Number.Rounding

/-!
# The nearest double

Of all doubles from zero to infinity, where infinity stands for the power of two that follows the
largest finite number, there is exactly one that is nearest to a fraction, and even if another one
is just as near. The main statement is that fractions are rounded to this double.
-/

namespace Kaleidoscope.Double

/-- The distance between the magnitude of a rank and a fraction, in units of the denominator. -/
def distance (numerator denominator rank : Nat) : Nat :=
  ((magnitude rank * denominator : Nat) - (numerator <<< 1074 : Nat) : Int).natAbs

/-- Whether a double is what a fraction is rounded to. -/
structure IsNearest (numerator denominator : Nat) (value : Double) : Prop where
  /-- It has no sign. -/
  negative_eq : value.negative = false
  /-- It is a number. -/
  rank_le : value.rank.val ≤ infinityRank
  /-- No other one is nearer to the fraction. -/
  distance_le : ∀ other ≤ infinityRank,
    distance numerator denominator value.rank ≤ distance numerator denominator other
  /-- It is even if another one is as near. -/
  even_of_eq : ∀ other ≤ infinityRank, other ≠ value.rank →
    distance numerator denominator other = distance numerator denominator value.rank →
      value.rank.val % 2 = 0

/-- Magnitudes grow with the ranks. -/
theorem magnitude_strictMono : StrictMono magnitude := strictMono_nat_of_lt_succ magnitude_lt_succ

section Rounding

variable {numerator denominator rank : Nat}

/-- Infinity has the lowest rank of its doubling. -/
theorem exists_scaled_infinityRank : ∃ doublings, Scaled infinityRank doublings doubling :=
  ⟨2046, by decide, by decide, .inr (Nat.le_refl _)⟩

/-- What is not below the magnitude of infinity is rounded to it. -/
theorem nearestRank_of_ge (hpos : 0 < denominator)
    (h : magnitude infinityRank * denominator ≤ numerator <<< 1074) :
    nearestRank numerator denominator = infinityRank := by
  have hdoubling : doubling = 2 ^ 52 := rfl
  obtain ⟨least, hscaled⟩ := exists_scaled_infinityRank
  rw [hscaled.magnitude_eq, ← Nat.le_div_iff_mul_le hpos, hdoubling, ← Nat.pow_add] at h
  rw [nearestRank]
  generalize numerator <<< 1074 = scaled at *
  have hzero : scaled / denominator ≠ 0 := by
    have hpow := Nat.two_pow_pos (52 + least)
    omega
  have hlog := (Nat.le_log2 hzero).2 h
  obtain ⟨doublings, hdoublings⟩ : ∃ doublings, (scaled / denominator).log2 = 52 + doublings :=
    Nat.exists_eq_add_of_le (by omega)
  have hquotient : doubling ≤ scaled / (denominator <<< doublings) := by
    have hself := Nat.log2_self_le hzero
    rwa [hdoublings, Nat.pow_add, Nat.le_div_iff_mul_le hpos, Nat.mul_assoc,
      Nat.mul_comm _ denominator, ← Nat.le_div_iff_mul_le
        (Nat.mul_pos hpos (Nat.two_pow_pos _)), ← Nat.shiftLeft_eq, ← hdoubling] at hself
  have hround : doubling ≤ roundToEven scaled (denominator <<< doublings) := by
    rw [roundToEven]
    split <;> omega
  have hmore : least * doubling ≤ doublings * doubling := Nat.mul_le_mul_right _ (by omega)
  rw [hdoublings, Nat.add_sub_cancel_left, hscaled.rank_eq]
  exact Nat.min_eq_left (Nat.add_le_add hmore hround)

/-- Whether a fraction reaches a rank: it lies above the midpoint under it, or on this midpoint if
the rank is even. -/
def Reaches (numerator denominator rank : Nat) : Prop :=
  (magnitude (rank - 1) + magnitude rank) * denominator + rank % 2 ≤ 2 * numerator <<< 1074

/-- The last rank that a fraction reaches is what it is rounded to. -/
theorem nearestRank_of_reaches (hpos : 0 < denominator) (hfinite : rank ≤ infinityRank)
    (hlow : 0 < rank → Reaches numerator denominator rank)
    (hhigh : rank < infinityRank → ¬Reaches numerator denominator (rank + 1)) :
    nearestRank numerator denominator = rank := by
  unfold Reaches at hlow hhigh
  rw [Nat.add_sub_cancel] at hhigh
  rcases Nat.eq_zero_or_pos rank with rfl | hrank
  · have hone : magnitude 0 + magnitude (0 + 1) = 1 := by decide
    have hhalf := hhigh (by decide)
    rw [hone] at hhalf
    exact nearestRank_of_le_half hpos (by omega)
  · have hlow := hlow hrank
    have heven : infinityRank % 2 = 0 := by decide
    by_cases habove : 2 * numerator <<< 1074 ≤ (magnitude rank + magnitude (rank + 1)) * denominator
    · refine nearestRank_eq hpos hrank hfinite (by omega) habove fun hodd => ⟨by omega, ?_⟩
      have hlt : rank < infinityRank := by
        refine Nat.lt_of_le_of_ne hfinite ?_
        rintro rfl
        omega
      have hnot := hhigh hlt
      omega
    · obtain rfl : rank = infinityRank := by
        refine Nat.le_antisymm hfinite (Nat.not_lt.1 fun hlt => ?_)
        have hnot := hhigh hlt
        omega
      have hgrows := magnitude_lt_succ infinityRank
      exact nearestRank_of_ge hpos (by nlinarith)

/-- Of a rank to which a fraction is rounded no other one is nearer to it, and the rank is even if
another one is as near. -/
theorem distance_of_reaches (hpos : 0 < denominator) (hfinite : rank ≤ infinityRank)
    (hlow : 0 < rank → Reaches numerator denominator rank)
    (hhigh : rank < infinityRank → ¬Reaches numerator denominator (rank + 1)) {other : Nat}
    (hother : other ≤ infinityRank) (hne : other ≠ rank) :
    distance numerator denominator rank ≤ distance numerator denominator other ∧
      (distance numerator denominator other = distance numerator denominator rank →
        rank % 2 = 0) := by
  unfold Reaches at hlow hhigh
  unfold distance
  rw [Nat.add_sub_cancel, Nat.add_mul] at hhigh
  rw [Nat.add_mul] at hlow
  generalize numerator <<< 1074 = scaled at *
  have hmono : ∀ {low high : Nat}, low ≤ high →
      magnitude low * denominator ≤ magnitude high * denominator :=
    fun h => Nat.mul_le_mul_right _ (magnitude_strictMono.monotone h)
  rcases Nat.lt_or_gt_of_ne hne with hlt | hgt
  · have hreaches := hlow (by omega)
    have hprevious := hmono (Nat.le_sub_one_of_lt hlt)
    have hgrows := Nat.mul_lt_mul_of_pos_right (magnitude_strictMono hlt) hpos
    omega
  · have hnot := hhigh (by omega)
    have hnext : magnitude (rank + 1) * denominator ≤ _ := hmono hgt
    have hgrows := Nat.mul_lt_mul_of_pos_right (magnitude_strictMono hgt) hpos
    omega

/-- A fraction is rounded to the nearest double. -/
theorem isNearest_nearest (numerator : Nat) (hpos : 0 < denominator) :
    IsNearest numerator denominator (nearest numerator denominator) := by
  classical
  -- The last rank up to infinity that the fraction reaches.
  let rank := Nat.findGreatest (Reaches numerator denominator) infinityRank
  have hfinite : rank ≤ infinityRank := Nat.findGreatest_le _
  have hlow : 0 < rank → Reaches numerator denominator rank :=
    fun h => Nat.findGreatest_of_ne_zero rfl (Nat.pos_iff_ne_zero.1 h)
  have hhigh : rank < infinityRank → ¬Reaches numerator denominator (rank + 1) :=
    fun h => Nat.findGreatest_is_greatest (Nat.lt_succ_self _) h
  have hrank : nearestRank numerator denominator = rank :=
    nearestRank_of_reaches hpos hfinite hlow hhigh
  have hdistance := @distance_of_reaches numerator denominator rank hpos hfinite hlow hhigh
  refine ⟨rfl, le_of_eq_of_le hrank hfinite, fun other hother => ?_, fun other hother hne heq => ?_⟩
  · change distance _ _ (nearestRank _ _) ≤ _
    rw [hrank]
    by_cases hne : other = rank
    · rw [hne]
    · exact (hdistance hother hne).1
  · change nearestRank _ _ % 2 = 0
    change other ≠ nearestRank _ _ at hne
    change _ = distance _ _ (nearestRank _ _) at heq
    rw [hrank] at hne heq ⊢
    exact (hdistance hother hne).2 heq

/-- Between two ranks that are as near there is none if one is nearest and both are even. -/
theorem IsNearest.not_lt {value other : Double} (hpos : 0 < denominator)
    (h : IsNearest numerator denominator value) (h' : IsNearest numerator denominator other) :
    ¬value.rank.val < other.rank.val := by
  intro hlt
  have hsame := Nat.le_antisymm (h.distance_le _ h'.rank_le) (h'.distance_le _ h.rank_le)
  have heven := h.even_of_eq _ h'.rank_le (Nat.ne_of_gt hlt) hsame.symm
  have heven' := h'.even_of_eq _ h.rank_le (Nat.ne_of_lt hlt) hsame
  have hbetween : value.rank.val + 1 < other.rank.val := by omega
  have hnearest := h.distance_le (value.rank.val + 1) (Nat.le_trans hbetween.le h'.rank_le)
  have hlow := Nat.mul_lt_mul_of_pos_right (magnitude_lt_succ value.rank) hpos
  have hhigh := Nat.mul_lt_mul_of_pos_right (magnitude_strictMono hbetween) hpos
  unfold distance at hsame hnearest
  generalize numerator <<< 1074 = scaled at *
  omega

/-- There is only one nearest double. -/
theorem IsNearest.unique {value other : Double} (hpos : 0 < denominator)
    (h : IsNearest numerator denominator value) (h' : IsNearest numerator denominator other) :
    value = other := by
  have hrank := Nat.le_antisymm (Nat.not_lt.1 (h'.not_lt hpos h)) (Nat.not_lt.1 (h.not_lt hpos h'))
  have hsign := h.negative_eq.trans h'.negative_eq.symm
  obtain ⟨negative, rank⟩ := value
  obtain ⟨negative', rank'⟩ := other
  obtain rfl : negative = negative' := hsign
  obtain rfl : rank = rank' := Fin.ext hrank
  rfl

end Rounding

end Kaleidoscope.Double
