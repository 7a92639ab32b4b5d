import Kaleidoscope.Expr.Basic
import Kaleidoscope.Number.Numeral
import Kaleidoscope.Proofs.Number.Rounding
import Mathlib.Data.List.TakeWhile

/-!
# Reading a number back

The text of a number in an expression is a numeral, and the value of that numeral is the number. The
digits give back the decimal that was printed without any loss, so that this rests on the rounding
of decimals alone. Infinity is printed as a power of ten above all finite numbers.
-/

namespace Kaleidoscope

namespace Numeral

/-- The natural number of a sequence of digits, in terms of the digits of the library. -/
theorem natural_eq (digits : List Char) : natural digits = Nat.ofDigitChars 10 digits 0 := by
  rw [natural, Nat.ofDigitChars_eq_foldl]
  congr 1
  funext total digit
  rw [Nat.mul_comm]

/-- Digits in front of others count as many times ten as there are others. -/
theorem natural_append (front back : List Char) :
    natural (front ++ back) = natural front * 10 ^ back.length + natural back := by
  rw [natural_eq, natural_eq, natural_eq, Nat.ofDigitChars_append,
    Nat.ofDigitChars_eq_ofDigitChars_zero, Nat.mul_comm]

/-- The digits of a natural number read as the number. -/
theorem natural_toDigits (n : Nat) : natural (Nat.toDigits 10 n) = n := by
  rw [natural_eq, Nat.ofDigitChars_ten_toDigits]

/-- A digit in front of others counts as many times ten as there are others. -/
theorem natural_digitChar_cons {digit : Nat} (h : digit < 10) (rest : List Char) :
    natural (Nat.digitChar digit :: rest) = digit * 10 ^ rest.length + natural rest := by
  rw [natural_eq, natural_eq, Nat.ofDigitChars_cons_digitChar_of_lt_ten h,
    Nat.ofDigitChars_eq_ofDigitChars_zero, Nat.mul_zero, Nat.zero_add, Nat.mul_comm]

/-- A one and zeros behind it read as a power of ten. -/
theorem natural_one_zeros (k : Nat) : natural ('1' :: List.replicate k '0') = 10 ^ k := by
  rw [natural_eq, Nat.ofDigitChars_cons, Nat.ofDigitChars_replicate_zero]
  exact Nat.mul_one _

/-- A one and zeros behind it are digits. -/
theorem isDigit_one_zeros (k : Nat) : ∀ c ∈ '1' :: List.replicate k '0', c.isDigit = true := by
  intro c hc
  rcases List.mem_cons.1 hc with rfl | hc
  · rfl
  · rw [List.eq_of_mem_replicate hc]
    rfl

/-- The value of digits without a dot. -/
theorem value_of_digits {digits : List Char} (h : ∀ c ∈ digits, c.isDigit = true) :
    value digits = Double.nearest (natural digits) 1 := by
  have hwhole : whole digits = digits := List.takeWhile_eq_self_iff.2 h
  have hfraction : fraction digits = [] := by
    have hdrop : digits.dropWhile Char.isDigit = [] := List.dropWhile_eq_nil_iff.2 h
    rw [fraction, hdrop]
  rw [value, hwhole, hfraction, List.append_nil]
  rfl

/-- The value of digits with a dot between them, whatever follows that begins with no digit. -/
theorem value_of_points {front back behind : List Char} (hfront : ∀ c ∈ front, c.isDigit = true)
    (hback : ∀ c ∈ back, c.isDigit = true)
    (hbehind : ∀ c, behind.head? = some c → c.isDigit = false) :
    value (front ++ '.' :: (back ++ behind)) =
      Double.nearest (natural (front ++ back)) (Nat.pow 10 back.length) := by
  have hwhole : whole (front ++ '.' :: (back ++ behind)) = front := by
    rw [whole, List.takeWhile_append_of_pos hfront, List.takeWhile_cons_of_neg (by decide),
      List.append_nil]
  have hstop : behind.takeWhile Char.isDigit = [] := by
    cases behind with
    | nil => rfl
    | cons c rest => rw [List.takeWhile_cons_of_neg (Bool.eq_false_iff.1 (hbehind c rfl))]
  have hfraction : fraction (front ++ '.' :: (back ++ behind)) = back := by
    rw [fraction, List.dropWhile_append_of_pos hfront, List.dropWhile_cons_of_neg (by decide)]
    change (back ++ behind).takeWhile Char.isDigit = back
    rw [List.takeWhile_append_of_pos hback, hstop, List.append_nil]
  rw [value, hwhole, hfraction]

/-- The value of digits with a dot between them. -/
theorem value_of_point {front back : List Char} (hfront : ∀ c ∈ front, c.isDigit = true)
    (hback : ∀ c ∈ back, c.isDigit = true) :
    value (front ++ '.' :: back) =
      Double.nearest (natural (front ++ back)) (Nat.pow 10 back.length) := by
  have hvalue := @value_of_points front back [] hfront hback nofun
  rwa [List.append_nil] at hvalue

end Numeral

namespace Double

/-- The digits of a fraction read as the fraction, up to the zeros at the end. -/
theorem natural_fractionDigits {places fraction : Nat} (h : fraction < 10 ^ places) :
    (fractionDigits places fraction).length ≤ places ∧
      (∀ c ∈ fractionDigits places fraction, c.isDigit = true) ∧
      Numeral.natural (fractionDigits places fraction) *
        10 ^ (places - (fractionDigits places fraction).length) = fraction := by
  induction places generalizing fraction with
  | zero =>
    obtain rfl : fraction = 0 := Nat.lt_one_iff.1 h
    exact ⟨Nat.le_refl _, by simp [fractionDigits], rfl⟩
  | succ places ih =>
    rw [fractionDigits]
    split
    · next hzero =>
      subst hzero
      exact ⟨Nat.zero_le _, by simp, Nat.zero_mul _⟩
    · have hpow : 0 < 10 ^ places := Nat.pow_pos (by omega)
      have hdigit : fraction / 10 ^ places < 10 := by
        rw [Nat.div_lt_iff_lt_mul hpow, Nat.mul_comm, ← Nat.pow_succ]
        exact h
      obtain ⟨hlength, hall, hnatural⟩ := ih (Nat.mod_lt fraction hpow)
      refine ⟨Nat.succ_le_succ hlength, fun c hc => ?_, ?_⟩
      · rcases List.mem_cons.1 hc with rfl | hc
        · rw [Nat.isDigit_digitChar]
          exact decide_eq_true hdigit
        · exact hall c hc
      · rw [Nat.pow_eq, List.length_cons, Nat.add_sub_add_right,
          Numeral.natural_digitChar_cons hdigit, Nat.add_mul]
        rw [hnatural, Nat.mul_assoc, ← Nat.pow_add, Nat.add_sub_cancel' hlength]
        exact Nat.div_add_mod' fraction _

/-- The text of a length, given in units of a last place, reads as the double nearest to it. -/
theorem exists_value_eq (places length : Nat) :
    ∃ numerator denominator, 0 < denominator ∧
      numerator * 10 ^ places = length * denominator ∧
      Numeral.value (Nat.toDigits 10 (length / Nat.pow 10 places) ++
          if (fractionDigits places (length % Nat.pow 10 places)).isEmpty then []
          else '.' :: fractionDigits places (length % Nat.pow 10 places)) =
        nearest numerator denominator := by
  have hone : 0 < 10 ^ places := Nat.pow_pos (by omega)
  have hdivision := Nat.div_add_mod' length (10 ^ places)
  obtain ⟨hlength, hall, hnatural⟩ := natural_fractionDigits (Nat.mod_lt length hone)
  have hwhole : ∀ c ∈ Nat.toDigits 10 (length / 10 ^ places), c.isDigit = true :=
    fun c hc => Nat.isDigit_of_mem_toDigits (by omega) (by omega) hc
  rw [Nat.pow_eq]
  generalize fractionDigits places (length % 10 ^ places) = digits at *
  cases digits with
  | nil =>
    refine ⟨length / 10 ^ places, 1, Nat.one_pos, ?_, ?_⟩
    · have hzero : length % 10 ^ places = 0 := by
        rw [← hnatural]
        exact Nat.zero_mul _
      rw [hzero] at hdivision
      rw [Nat.mul_one]
      exact hdivision
    · rw [List.isEmpty_nil, if_pos rfl, List.append_nil, Numeral.value_of_digits hwhole,
        Numeral.natural_toDigits]
  | cons digit digits =>
    have hten : 0 < 10 ^ (digit :: digits).length := Nat.pow_pos (by omega)
    refine ⟨Numeral.natural (Nat.toDigits 10 (length / 10 ^ places) ++ digit :: digits), _, hten,
      ?_, ?_⟩
    · rw [Numeral.natural_append, Numeral.natural_toDigits]
      have hpow : 10 ^ places = 10 ^ (places - (digit :: digits).length) *
          10 ^ (digit :: digits).length := by
        rw [← Nat.pow_add, Nat.sub_add_cancel hlength]
      calc (length / 10 ^ places * 10 ^ (digit :: digits).length +
              Numeral.natural (digit :: digits)) * 10 ^ places
          = (length / 10 ^ places * 10 ^ places + Numeral.natural (digit :: digits) *
              10 ^ (places - (digit :: digits).length)) * 10 ^ (digit :: digits).length := by
            rw [Nat.add_mul, Nat.add_mul, Nat.mul_right_comm,
              Nat.mul_assoc (Numeral.natural (digit :: digits)), ← hpow]
        _ = length * 10 ^ (digit :: digits).length := by rw [hnatural, hdivision]
    · rw [List.isEmpty_cons, if_neg Bool.false_ne_true, Numeral.value_of_point hwhole hall]
      rfl

/-- The text of a number in an expression has no sign: it is a power of ten or a decimal. -/
theorem printNumber_eq {value : Double} (hnan : value.isNaN = false)
    (hsign : value.negative = false) :
    Expr.printNumber value = if value.isInfinite then '1' :: List.replicate 309 '0'
      else positional (shortest value.rank.val) := by
  rw [Expr.printNumber]
  split
  · rfl
  · next hinfinite =>
    rw [print, hnan, hsign, if_neg Bool.false_ne_true, if_neg Bool.false_ne_true, if_neg hinfinite,
      List.nil_append]

/-- The text of a number in an expression reads as the number. -/
theorem value_printNumber {value : Double} (hnan : value.isNaN = false)
    (hsign : value.negative = false) : Numeral.value (Expr.printNumber value) = value := by
  obtain ⟨negative, ⟨rank, hlt⟩⟩ := value
  obtain rfl : negative = false := hsign
  have hfinite : rank ≤ infinityRank := Nat.not_lt.1 (of_decide_eq_false hnan)
  have hnearest : ∀ numerator denominator, nearestRank numerator denominator = rank →
      nearest numerator denominator = ⟨false, ⟨rank, hlt⟩⟩ := by
    rintro numerator denominator rfl
    rfl
  rw [printNumber_eq hnan rfl]
  split
  · next hinfinite =>
    have hrank : rank = infinityRank := of_decide_eq_true hinfinite
    rw [Numeral.value_of_digits (Numeral.isDigit_one_zeros 309), Numeral.natural_one_zeros]
    apply hnearest
    rw [hrank]
    decide +kernel
  · obtain ⟨numerator, denominator, hpos, heq, hvalue⟩ :=
      exists_value_eq unitPlaces (shortest rank)
    rw [positional]
    rw [hvalue]
    exact hnearest _ _ (nearestRank_shortest hfinite hpos heq)

/-- The text of a length is made of digits and dots. -/
theorem isPart_of_mem_digits (places length : Nat) :
    ∀ c ∈ Nat.toDigits 10 (length / Nat.pow 10 places) ++
        (if (fractionDigits places (length % Nat.pow 10 places)).isEmpty then []
        else '.' :: fractionDigits places (length % Nat.pow 10 places)),
      Numeral.isPart c = true := by
  have hone : 0 < 10 ^ places := Nat.pow_pos (by omega)
  obtain ⟨_, hall, _⟩ := natural_fractionDigits (Nat.mod_lt length hone)
  intro c hc
  rw [Numeral.isPart, Bool.or_eq_true]
  rcases List.mem_append.1 hc with hc | hc
  · exact .inl (Nat.isDigit_of_mem_toDigits (by omega) (by omega) hc)
  · split at hc
    · exact absurd hc List.not_mem_nil
    · rcases List.mem_cons.1 hc with rfl | hc
      · exact .inr rfl
      · exact .inl (hall c hc)

/-- The text of a number in an expression is a numeral. -/
theorem isPart_printNumber {value : Double} (hnan : value.isNaN = false)
    (hsign : value.negative = false) :
    Expr.printNumber value ≠ [] ∧ ∀ c ∈ Expr.printNumber value, Numeral.isPart c = true := by
  rw [printNumber_eq hnan hsign]
  split
  · refine ⟨List.cons_ne_nil _ _, fun c hc => ?_⟩
    rw [Numeral.isPart, Numeral.isDigit_one_zeros 309 c hc, Bool.true_or]
  · exact ⟨List.append_ne_nil_of_left_ne_nil Nat.toDigits_ne_nil _,
      isPart_of_mem_digits unitPlaces (shortest value.rank.val)⟩

end Double

end Kaleidoscope
