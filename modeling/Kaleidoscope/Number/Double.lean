/-!
# Double precision numbers

A number of the language is a binary number of 64 bits: a sign and a rank. The rank counts the
numbers between zero and it, so ranks are ordered as magnitudes are, the rank of infinity follows
that of the largest finite number, and everything above is not a number. Magnitudes are measured
in the smallest positive one, 2 to the power -1074, so that all arithmetic is on natural numbers.
-/

namespace Kaleidoscope

/-- A double precision number. The bound of the rank is 2 to the power 63. -/
structure Double where
  /-- The sign, which zero and a value that is not a number have as well. -/
  negative : Bool
  /-- The place among the magnitudes. -/
  rank : Fin 0x8000000000000000
  deriving DecidableEq

namespace Double

/-- The number of ranks from a number of 53 bits to its double, which is 2 to the power 52. -/
def doubling : Nat := 0x10000000000000

/-- The rank of infinity. -/
def infinityRank : Nat := 2047 * doubling

/-- Positive zero. -/
def zero : Double := ⟨false, ⟨0, by decide⟩⟩

instance : Inhabited Double := ⟨zero⟩

/-- Whether the value is not a number. -/
def isNaN (value : Double) : Bool := decide (infinityRank < value.rank.val)

/-- Whether the value is positive or negative infinity. -/
def isInfinite (value : Double) : Bool := decide (value.rank.val = infinityRank)

/-- Equality of values: zeros of both signs are equal, and what is not a number equals nothing. -/
instance : BEq Double where
  beq left right :=
    !left.isNaN && !right.isNaN &&
      (decide (left.rank.val = 0 ∧ right.rank.val = 0) || decide (left = right))

/-- The number whose interchange format is the given word. -/
def ofBits (bits : UInt64) : Double :=
  ⟨decide (0x8000000000000000 ≤ bits.toNat),
    ⟨bits.toNat % 0x8000000000000000, Nat.mod_lt _ (by decide)⟩⟩

/-- The interchange format: the sign above the rank. -/
def toBits (value : Double) : UInt64 :=
  UInt64.ofNat ((if value.negative then 0x8000000000000000 else 0) + value.rank.val)

/-- The magnitude of a rank, in units of 2 to the power -1074. Up to twice the number of ranks in a
doubling the ranks are their own magnitudes; from there on the steps double with every doubling. -/
def magnitude (rank : Nat) : Nat :=
  if rank < doubling then rank
  else (doubling + rank % doubling) <<< (rank / doubling - 1)

/-- A quotient rounded to the nearest natural number, and to the even one of two. -/
def roundToEven (numerator denominator : Nat) : Nat :=
  let quotient := numerator / denominator
  let twice := 2 * (numerator % denominator)
  if denominator < twice ∨ (twice = denominator ∧ quotient % 2 = 1) then quotient + 1
  else quotient

/-- The rank whose magnitude is nearest to a positive fraction, the even one of two. The leading 53
bits of the fraction are rounded, and each bit that they leave out adds a doubling; a fraction that
is rounded up to 54 bits reaches the first rank of the next doubling by the same sum. -/
def nearestRank (numerator denominator : Nat) : Nat :=
  let scaled := numerator <<< 1074
  let doublings := (scaled / denominator).log2 - 52
  min infinityRank
    (doublings * doubling + roundToEven scaled (denominator <<< doublings))

/-- Infinity has a rank. -/
theorem infinityRank_lt : infinityRank < 0x8000000000000000 := by decide

/-- Nothing is rounded to a rank above infinity. -/
theorem nearestRank_lt (numerator denominator : Nat) :
    nearestRank numerator denominator < 0x8000000000000000 :=
  Nat.lt_of_le_of_lt (Nat.min_le_left ..) infinityRank_lt

/-- The number nearest to a fraction that is not negative. What exceeds the largest finite number
by half a step or more is infinite. -/
def nearest (numerator denominator : Nat) : Double :=
  ⟨false, ⟨nearestRank numerator denominator, nearestRank_lt numerator denominator⟩⟩

end Double

end Kaleidoscope
