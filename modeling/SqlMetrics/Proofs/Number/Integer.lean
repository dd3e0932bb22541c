import SqlMetrics.Proofs.Number.Double
import SqlMetrics.Proofs.Number.Text

/-!
# Integers as doubles

A 64-bit integer becomes the double nearest to it, which is a whole number, and a whole number is
written with zeros behind the point.

- **Rounding**: `exists_roundsToWhole` says which natural number the magnitude is rounded to.
- **Places**: `fixed_of_whole` says how a whole number is written.
- **Text**: `exists_fixed_ofInt` puts these together.
-/

namespace SqlMetrics.Number

/-! ## Rounding -/

/-- An integer that is a double: one with a significand of `53` bits. -/
def FitsDouble (n : ℤ) : Prop :=
  ∃ (m : ℤ) (e : Nat), m.natAbs < 2 ^ 53 ∧ n = m * 2 ^ e

theorem fitsDouble_of_natAbs_le {n : ℤ} (h : n.natAbs ≤ 2 ^ 53) : FitsDouble n := by
  rcases Nat.lt_or_eq_of_le h with hLess | hSame
  · exact ⟨n, 0, hLess, by simp⟩
  · rcases Int.natAbs_eq n with hPos | hNeg
    · exact ⟨1, 53, by norm_num, by omega⟩
    · exact ⟨-1, 53, by norm_num, by omega⟩

section

variable {n : Nat} (hPos : 0 < n)

include hPos

/-- No natural number that is a double is nearer than what a natural number is rounded to. -/
theorem abs_sub_nearest_nat_le {k : Nat} (e : Nat) (hBits : k ≤ 2 ^ 53) :
    |(n : ℚ) - (binary64.nearest n 1).value| ≤ |(n : ℚ) - (k * 2 ^ e : Nat)| := by
  have hNearest := abs_sub_nearest_le hPos Nat.one_pos (e := (e : ℤ)) hBits (by omega)
  rw [Nat.cast_one, div_one, zpow_natCast] at hNearest
  exact_mod_cast hNearest

/-- A natural number of `53` bits is rounded to itself. -/
theorem value_nearest_of_le (hBits : n ≤ 2 ^ 53) : (binary64.nearest n 1).value = n := by
  have hNearest := abs_sub_nearest_nat_le hPos 0 hBits
  rw [pow_zero, mul_one, sub_self, abs_zero] at hNearest
  exact (sub_eq_zero.mp (abs_nonpos_iff.mp hNearest)).symm

/-- A natural number is rounded to a natural number. -/
theorem exists_value_nearest_nat : ∃ r : Nat, (binary64.nearest n 1).value = r := by
  obtain ⟨m, -, hValue⟩ := exists_value_nearest hPos Nat.one_pos
  obtain ⟨hBits, -⟩ := scaled_bounds (quotient_pos hPos Nat.one_pos)
  rcases Int.le_total 0 (roundingExponent ((n : ℚ) / (1 : Nat))) with hWhole | hFraction
  · obtain ⟨e, hExponent⟩ := Int.eq_ofNat_of_zero_le hWhole
    refine ⟨m * 2 ^ e, ?_⟩
    rw [hValue, hExponent, zpow_natCast]
    push_cast
    rfl
  · -- The number is below `2 ^ 53`, so it is rounded to itself.
    refine ⟨n, value_nearest_of_le hPos ?_⟩
    rw [Nat.cast_one, div_one] at hBits hFraction
    rw [div_lt_iff₀ (by positivity)] at hBits
    have hLess : (n : ℚ) ≤ 2 ^ 53 := by
      calc (n : ℚ) ≤ 2 ^ 53 * 2 ^ roundingExponent n := hBits.le
        _ ≤ 2 ^ 53 * 1 := by
          gcongr
          exact zpow_le_one_of_nonpos₀ (by norm_num) hFraction
        _ = 2 ^ 53 := mul_one _
    exact_mod_cast hLess

theorem exponent_nearest_nat_le (hBits : n ≤ 2 ^ 64) : (binary64.nearest n 1).exponent ≤ 971 := by
  obtain ⟨m, -, hNearest⟩ := exists_rounded_nearest hPos Nat.one_pos
  have hLog : Int.log 2 ((n : ℚ) / (1 : Nat)) < 65 := by
    rw [← lt_two_zpow_iff (quotient_pos hPos Nat.one_pos), Nat.cast_one, div_one]
    calc (n : ℚ) ≤ (2 ^ 64 : Nat) := by exact_mod_cast hBits
      _ < 2 ^ (65 : ℤ) := by norm_num
  have hExponent : roundingExponent ((n : ℚ) / (1 : Nat)) ≤ 12 := by
    rw [roundingExponent]
    omega
  rw [hNearest]
  split
  · dsimp only
    omega
  · dsimp only
    omega

end

/-- A double is the one nearest to an integer, given by its sign and magnitude: its own magnitude is
a natural number, which is zero for zero only. -/
structure RoundsToWhole (negative : Bool) (n : Nat) (x : Double) (r : Nat) : Prop where
  isFinite : x.isFinite = true
  isNegative : x.isNegative = negative
  value : x.scaled.value = r
  pos : 0 < n → 0 < r
  /-- The magnitude is a double itself. -/
  fits : FitsDouble r
  /-- No other magnitude of a double is nearer. -/
  nearest : ∀ k e : Nat, k ≤ 2 ^ 53 → |(n : ℚ) - r| ≤ |(n : ℚ) - (k * 2 ^ e : Nat)|

theorem fitsDouble_of_value {s : Scaled} {r : Nat} (hDouble : s.IsDouble) (h : s.value = r) :
    FitsDouble r := by
  rcases Int.le_total 0 s.exponent with hWhole | hFraction
  · obtain ⟨e, hExponent⟩ := Int.eq_ofNat_of_zero_le hWhole
    refine ⟨s.significand, e, by simpa using hDouble.significand_lt, ?_⟩
    rw [Scaled.value, hExponent, zpow_natCast] at h
    exact_mod_cast h.symm
  · have hLess : (r : ℚ) ≤ s.significand := by
      rw [← h, Scaled.value]
      exact mul_le_of_le_one_right (by positivity) (zpow_le_one_of_nonpos₀ (by norm_num) hFraction)
    have hLess' : r ≤ s.significand := by exact_mod_cast hLess
    exact fitsDouble_of_natAbs_le (by simpa using (hLess'.trans_lt hDouble.significand_lt).le)

theorem nearest_zero : binary64.nearest 0 1 = ⟨0, -1074⟩ := rfl

theorem exists_roundsToWhole {n : Nat} (negative : Bool) (hBits : n ≤ 2 ^ 64) :
    ∃ r, RoundsToWhole negative n (Double.ofRatio negative n 1) r := by
  rcases Nat.eq_zero_or_pos n with rfl | hPos
  · have hDouble : (binary64.nearest 0 1).IsDouble := ⟨by decide, by decide, .inl rfl⟩
    have hExponent : (binary64.nearest 0 1).exponent ≤ 971 := by decide
    refine ⟨0, Double.isFinite_ofScaled hDouble hExponent negative,
      Double.isNegative_ofScaled hDouble hExponent negative, ?_, id,
      fitsDouble_of_natAbs_le (by decide), fun k e _ => by simp⟩
    rw [Double.ofRatio, Double.scaled_ofScaled hDouble hExponent]
    simp [nearest_zero, Scaled.value]
  · obtain ⟨r, hValue⟩ := exists_value_nearest_nat hPos
    have hDouble := isDouble_nearest hPos Nat.one_pos
    have hExponent := exponent_nearest_nat_le hPos hBits
    have hNearest (k e : Nat) (hLess : k ≤ 2 ^ 53) := abs_sub_nearest_nat_le hPos e hLess
    rw [hValue] at hNearest
    refine ⟨r, Double.isFinite_ofScaled hDouble hExponent negative,
      Double.isNegative_ofScaled hDouble hExponent negative, ?_, fun _ => ?_,
      fitsDouble_of_value hDouble hValue, hNearest⟩
    · rw [Double.ofRatio, Double.scaled_ofScaled hDouble hExponent, hValue]
    · -- One is a double, and not farther from the number than zero.
      by_contra hZero
      obtain rfl : r = 0 := by omega
      have hOne := hNearest 1 0 (by norm_num)
      have hAtLeast : (1 : ℚ) ≤ n := by exact_mod_cast hPos
      rw [abs_of_nonneg (by simp), abs_of_nonneg (by simpa using hAtLeast)] at hOne
      norm_num at hOne

/-- **A natural number becomes the double nearest to it**, as far as unsigned 64-bit integers go. -/
theorem ofInt_natCast_nearest {n : Nat} (hPos : 0 < n) (hBits : n ≤ 2 ^ 64) :
    (Double.ofInt n).isFinite = true ∧ (Double.ofInt n).isNegative = false ∧
      ∀ y : Double, y.isFinite = true →
        |(n : ℚ) - (Double.ofInt n).scaled.value| ≤ |(n : ℚ) - y.scaled.value| := by
  have hDouble := isDouble_nearest hPos Nat.one_pos
  have hExponent := exponent_nearest_nat_le hPos hBits
  have hEq : Double.ofInt n = Double.ofScaled false (binary64.nearest n 1) := by
    rw [Double.ofInt, Double.ofRatio, Int.natAbs_natCast, decide_eq_false (by omega)]
  rw [hEq, Double.scaled_ofScaled hDouble hExponent]
  refine ⟨Double.isFinite_ofScaled hDouble hExponent false,
    Double.isNegative_ofScaled hDouble hExponent false, fun y hFinite => ?_⟩
  obtain ⟨⟨hBits, hLeast, -⟩, -⟩ := Double.isDouble_scaled hFinite
  have hNearest := abs_sub_nearest_le hPos Nat.one_pos hBits.le hLeast
  rw [Nat.cast_one, div_one] at hNearest
  exact hNearest

/-! ## Places -/

theorem quotient_ratio (x : Double) : quotient x.ratio = x.scaled.value := by
  have hRatio : x.ratio = scaleTwo x.significand 1 (-x.exponent) := by
    simp [Double.ratio, scaleTwo]
  rw [hRatio, quotient_scaleTwo, Nat.cast_one, div_one, zpow_neg, div_inv_eq_mul]
  rfl

theorem ratio_snd_pos (x : Double) : 0 < x.ratio.2 :=
  Nat.pow_pos (by decide)

/-- A whole number of steps is rounded to itself. -/
theorem isRounded_natCast (m : Nat) : IsRounded m m :=
  ⟨by simp, fun hTie => by norm_num at hTie⟩

/-- The point is put before as many digits as there are places. -/
theorem positional_append_zeros {digits : List Char} {places : Nat} (hSome : digits ≠ [])
    (hPlaces : 0 < places) :
    positional (digits ++ zeros places) (-(places : ℤ)) = digits ++ '.' :: zeros places := by
  have hLength : (digits ++ zeros places).length - places = digits.length := by simp [zeros]
  have hLess : places < (digits ++ zeros places).length := by
    have hPos := List.length_pos_of_ne_nil hSome
    simp [zeros]
    omega
  rw [positional, if_neg (by omega)]
  simp only [neg_neg, Int.toNat_natCast]
  rw [if_pos hLess, hLength, List.take_left, List.drop_left]

/-- A whole number is written with zeros behind the point. -/
theorem fixed_of_whole {x : Double} {r : Nat} (h : x.scaled.value = r) {places : Nat}
    (hPlaces : 0 < places) :
    (x.fixed places).toList = x.signChars ++ (natDigits r ++ '.' :: zeros places) := by
  have hDigits : roundHalfEven (x.ratio.1 * tenTo places) x.ratio.2 = r * tenTo places := by
    apply IsRounded.roundHalfEven_eq (ratio_snd_pos x)
    have hScaled : ((x.ratio.1 * tenTo places : Nat) / x.ratio.2 : ℚ) =
        (r * tenTo places : Nat) := by
      rw [Nat.cast_mul, mul_div_right_comm, ← quotient, quotient_ratio, h, Nat.cast_mul]
    rw [hScaled]
    exact isRounded_natCast _
  -- With zeros before it, the number has its digits and behind them as many zeros as places.
  have hPadded : zeros (places + 1 - (natDigits (r * tenTo places)).length) ++
      natDigits (r * tenTo places) = natDigits r ++ zeros places := by
    rcases Nat.eq_zero_or_pos r with rfl | hPos
    · have hZero : natDigits (0 * tenTo places) = ['0'] := by
        rw [Nat.zero_mul]
        rfl
      rw [hZero, List.length_singleton, Nat.add_sub_cancel, ← zeros_succ]
      rfl
    · rw [natDigits_mul_tenTo hPos]
      have hSome : 0 < (natDigits r).length := List.length_pos_of_ne_nil Nat.toDigits_ne_nil
      have hNone : places + 1 - (natDigits r ++ zeros places).length = 0 := by
        simp [zeros]
        omega
      rw [hNone]
      rfl
  rw [Double.fixed, String.toList_ofList]
  have hSome : natDigits r ≠ [] := Nat.toDigits_ne_nil
  simp only [hDigits, hPadded]
  rw [positional_append_zeros hSome hPlaces]

/-! ## Text -/

theorem FitsDouble.exists_natAbs {n : ℤ} (h : FitsDouble n) :
    ∃ k e : Nat, k < 2 ^ 53 ∧ n.natAbs = k * 2 ^ e := by
  obtain ⟨m, e, hBits, rfl⟩ := h
  exact ⟨m.natAbs, e, hBits, by rw [Int.natAbs_mul, Int.natAbs_pow]; rfl⟩

theorem FitsDouble.signed {r : Nat} (h : FitsDouble r) (negative : Bool) :
    FitsDouble (signed negative r) := by
  obtain ⟨m, e, hBits, hValue⟩ := h
  cases negative with
  | false => exact ⟨m, e, hBits, hValue⟩
  | true =>
    refine ⟨-m, e, by rwa [Int.natAbs_neg], ?_⟩
    rw [Number.signed, if_pos rfl, hValue, neg_mul]

/-- Two integers of one sign are as far apart as their magnitudes. -/
theorem abs_sub_signed (n : ℤ) (r : Nat) :
    |n - signed (decide (n < 0)) r| = |(n.natAbs : ℤ) - r| := by
  by_cases hNegative : n < 0
  · rw [decide_eq_true hNegative, signed, if_pos rfl, ← abs_neg]
    congr 1
    omega
  · rw [decide_eq_false hNegative, signed, if_neg Bool.false_ne_true]
    congr 1
    omega

/-- A magnitude that is zero for zero only is written behind the sign of the integer. -/
theorem intText_signed {n : ℤ} {r : Nat} (h : n ≠ 0 → 0 < r) :
    (intText (signed (decide (n < 0)) r)).toList =
      (if n < 0 then ['-'] else []) ++ natDigits r := by
  rw [intText, String.toList_ofList]
  by_cases hNegative : n < 0
  · have hPos := h (by omega)
    rw [decide_eq_true hNegative, signed, if_pos rfl, if_pos (by omega), if_pos hNegative,
      Int.natAbs_neg, Int.natAbs_natCast]
  · rw [decide_eq_false hNegative, signed, if_neg Bool.false_ne_true, if_neg (by omega),
      if_neg hNegative, Int.natAbs_natCast]

/-- **A 64-bit integer is written as the double nearest to it**, which is an integer, with zeros
behind the point. -/
theorem exists_fixed_ofInt {n : ℤ} (hBits : n.natAbs ≤ 2 ^ 63) :
    ∃ r : ℤ, (Double.ofInt n).isFinite = true ∧ FitsDouble r ∧
      (∀ t, FitsDouble t → |n - r| ≤ |n - t|) ∧
      ∀ places, 0 < places →
        ((Double.ofInt n).fixed places).toList = (intText r).toList ++ '.' :: zeros places := by
  obtain ⟨r, hRounds⟩ : ∃ r, RoundsToWhole (decide (n < 0)) n.natAbs (Double.ofInt n) r :=
    exists_roundsToWhole (decide (n < 0)) (hBits.trans (by norm_num))
  refine ⟨signed (decide (n < 0)) r, hRounds.isFinite, hRounds.fits.signed _, ?_, ?_⟩
  · intro t hFits
    obtain ⟨k, e, hLess, hMagnitude⟩ := hFits.exists_natAbs
    have hNearest := hRounds.nearest k e hLess.le
    rw [← hMagnitude] at hNearest
    calc |n - signed (decide (n < 0)) r| = |(n.natAbs : ℤ) - r| := abs_sub_signed n r
      _ ≤ |(n.natAbs : ℤ) - t.natAbs| := by exact_mod_cast hNearest
      _ ≤ |n - t| := by
        rw [Int.natCast_natAbs, Int.natCast_natAbs]
        exact abs_abs_sub_abs_le n t
  · intro places hPlaces
    have hNonzero : n ≠ 0 → 0 < r := fun hNe => hRounds.pos (Int.natAbs_pos.mpr hNe)
    rw [fixed_of_whole hRounds.value hPlaces, intText_signed hNonzero, Double.signChars,
      hRounds.isNegative, List.append_assoc]
    simp only [decide_eq_true_eq]

end SqlMetrics.Number
