import SqlMetrics.Number.Shortest
import SqlMetrics.Proofs.Number.Double

/-!
# Shortest decimals read back

The shortest decimal of a positive finite double is nearer to it than to any other double.

- **Midpoints**: `ReadsBack` is being nearest to a number of double precision, said with the
  midpoints to its neighbours, and `nearest_of_readsBack` says that such numbers are rounded to it.
- **Intervals**: `contains_iff` says that the comparisons of natural numbers decide this.
- **Search**: seventeen digits suffice, so the search finds a decimal.  The main result is
  `readsBack_shortest`.
-/

namespace SqlMetrics.Number

/-! ## Midpoints -/

/-- How far the lower midpoint is away, in units of the significand.  Below a power of two the
numbers of double precision are twice as dense. -/
def Scaled.lowerGap (s : Scaled) : ℚ :=
  if s.significand = 2 ^ 52 ∧ -1074 < s.exponent then 1 / 4 else 1 / 2

/-- The midpoint to the number below. -/
def Scaled.lower (s : Scaled) : ℚ :=
  (s.significand - s.lowerGap) * 2 ^ s.exponent

/-- The midpoint to the number above. -/
def Scaled.upper (s : Scaled) : ℚ :=
  (s.significand + 1 / 2) * 2 ^ s.exponent

/-- A number lies between the midpoints around a number of double precision; the midpoints
themselves count where the significand is even. -/
structure ReadsBack (s : Scaled) (v : ℚ) : Prop where
  lower_le : s.lower ≤ v
  le_upper : v ≤ s.upper
  even_of_midpoint : v = s.lower ∨ v = s.upper → Even s.significand

theorem Scaled.lowerGap_cases (s : Scaled) :
    (s.significand = 2 ^ 52 ∧ -1074 < s.exponent ∧ s.lowerGap = 1 / 4) ∨
      (¬(s.significand = 2 ^ 52 ∧ -1074 < s.exponent) ∧ s.lowerGap = 1 / 2) := by
  unfold Scaled.lowerGap
  split
  case isTrue hPower => exact .inl ⟨hPower.1, hPower.2, rfl⟩
  case isFalse hOther => exact .inr ⟨hOther, rfl⟩

theorem Scaled.lowerGap_le (s : Scaled) : s.lowerGap ≤ 1 / 2 := by
  unfold Scaled.lowerGap
  split <;> norm_num

/-- What is strictly nearer than both midpoints reads back. -/
theorem readsBack_of_abs_lt {s : Scaled} {v : ℚ}
    (h : |v - s.value| < s.lowerGap * 2 ^ s.exponent) : ReadsBack s v := by
  have hUnit : (0 : ℚ) < 2 ^ s.exponent := by positivity
  have hGap := mul_le_mul_of_nonneg_right s.lowerGap_le hUnit.le
  obtain ⟨hLow, hHigh⟩ := abs_lt.mp h
  have hLower : s.lower < v := by
    rw [Scaled.lower, sub_mul]
    rw [Scaled.value] at hLow
    linarith
  have hUpper : v < s.upper := by
    rw [Scaled.upper, add_mul]
    rw [Scaled.value] at hHigh
    linarith
  exact ⟨hLower.le, hUpper.le, fun hMidpoint =>
    absurd hMidpoint (not_or.mpr ⟨hLower.ne', hUpper.ne⟩)⟩

/-- The exponent with which a number is written is the one that leaves `53` bits before the point,
or the least one. -/
theorem roundingExponent_eq {v : ℚ} {q : ℤ} (hPos : 0 < v) (hHigh : v < 2 ^ 53 * 2 ^ q)
    (hLeast : -1074 ≤ q) (hLow : q = -1074 ∨ 2 ^ 52 * 2 ^ q ≤ v) : roundingExponent v = q := by
  have hAbove : Int.log 2 v < 53 + q := by
    rw [← lt_two_zpow_iff hPos, zpow_add₀ two_ne_zero]
    exact_mod_cast hHigh
  rw [roundingExponent]
  rcases hLow with rfl | hNormal
  · exact max_eq_right (by omega)
  · have hBelow : 52 + q ≤ Int.log 2 v := by
      rw [← two_zpow_le_iff hPos, zpow_add₀ two_ne_zero]
      exact_mod_cast hNormal
    rw [max_eq_left] <;> omega

/-- In units of the significand, what reads back is at most one half away from it, and the
significand is even in a tie. -/
theorem ReadsBack.isRounded {s : Scaled} {v : ℚ} (h : ReadsBack s v) :
    IsRounded (v / 2 ^ s.exponent) s.significand := by
  have hUnit : (0 : ℚ) < 2 ^ s.exponent := by positivity
  have hLow : s.significand - s.lowerGap ≤ v / 2 ^ s.exponent := (le_div_iff₀ hUnit).mpr h.lower_le
  have hHigh : v / 2 ^ s.exponent ≤ s.significand + 1 / 2 := (div_le_iff₀ hUnit).mpr h.le_upper
  have hGap := s.lowerGap_le
  refine ⟨abs_le.mpr ⟨by linarith, by linarith⟩, fun hTie => h.even_of_midpoint ?_⟩
  -- At a distance of one half there is nothing but the two midpoints.
  rcases (abs_eq (by norm_num)).mp hTie with hAbove | hBelow
  · right
    rw [Scaled.upper, ← div_eq_iff hUnit.ne']
    linarith
  · left
    rw [Scaled.lower, ← div_eq_iff hUnit.ne']
    linarith

/-- A number that reads back and is smaller than all numbers with the exponent lies just below a
power of two: less than half a step away, by the steps of the exponent before. -/
theorem ReadsBack.below_power {s : Scaled} {v : ℚ} (hDouble : s.IsDouble) (h : ReadsBack s v)
    (hNormal : s.exponent ≠ -1074) (hBelow : v < 2 ^ 52 * 2 ^ s.exponent) :
    s.significand = 2 ^ 52 ∧ (2 ^ 53 - 1 / 2) * 2 ^ (s.exponent - 1) ≤ v := by
  have hUnit : (0 : ℚ) < 2 ^ s.exponent := by positivity
  have hLeast := hDouble.le_exponent
  have hMany := hDouble.normal.resolve_left hNormal
  have hFew : (s.significand : ℚ) - s.lowerGap < 2 ^ 52 :=
    lt_of_mul_lt_mul_right (h.lower_le.trans_lt hBelow) hUnit.le
  have hPower : s.significand = 2 ^ 52 := by
    have hGap := s.lowerGap_le
    have hLess : (s.significand : ℚ) < (2 ^ 52 + 1 : Nat) := by
      push_cast
      linarith
    have hLess' : s.significand < 2 ^ 52 + 1 := by exact_mod_cast hLess
    omega
  have hGap : s.lowerGap = 1 / 4 := by
    rw [Scaled.lowerGap, if_pos ⟨hPower, by omega⟩]
  refine ⟨hPower, ?_⟩
  have hLow := h.lower_le
  rw [Scaled.lower, hGap, hPower] at hLow
  rw [zpow_sub_one₀ two_ne_zero]
  push_cast at hLow
  linarith

/-- **What lies between the midpoints is rounded to the number of double precision** between
them. -/
theorem nearest_of_readsBack {s : Scaled} {num den : Nat} (hDouble : s.IsDouble)
    (hNum : 0 < num) (hDen : 0 < den) (h : ReadsBack s (num / den)) :
    binary64.nearest num den = s := by
  obtain ⟨m, hRounded, hNearest⟩ := exists_rounded_nearest hNum hDen
  have hPos := quotient_pos hNum hDen
  have hUnit : (0 : ℚ) < 2 ^ s.exponent := by positivity
  have hBits : (s.significand : ℚ) + 1 ≤ 2 ^ 53 := by exact_mod_cast hDouble.significand_lt
  rw [hNearest]
  generalize (num / den : ℚ) = v at *
  have hHigh : v < 2 ^ 53 * 2 ^ s.exponent := by
    refine h.le_upper.trans_lt (mul_lt_mul_of_pos_right ?_ hUnit)
    linarith
  by_cases hSame : s.exponent = -1074 ∨ 2 ^ 52 * 2 ^ s.exponent ≤ v
  · -- The number is written with the same exponent, and rounded to the same significand.
    have hExponent := roundingExponent_eq hPos hHigh hDouble.le_exponent hSame
    rw [hExponent] at hRounded ⊢
    obtain rfl := hRounded.unique h.isRounded
    rw [if_neg hDouble.significand_lt.ne]
  · -- The number is below a power of two, and is rounded up to it.
    obtain ⟨hNormal, hBelow⟩ := not_or.mp hSame
    obtain ⟨hPower, hLower⟩ := h.below_power hDouble hNormal (lt_of_not_ge hBelow)
    have hLeast := hDouble.le_exponent
    have hUpper : v < 2 ^ 53 * 2 ^ (s.exponent - 1) := by
      rw [zpow_sub_one₀ two_ne_zero]
      linarith [lt_of_not_ge hBelow]
    have hUnit' : (0 : ℚ) < 2 ^ (s.exponent - 1) := by positivity
    have hExponent : roundingExponent v = s.exponent - 1 := by
      refine roundingExponent_eq hPos hUpper (by omega) (.inr (le_trans ?_ hLower))
      exact mul_le_mul_of_nonneg_right (by norm_num) hUnit'.le
    rw [hExponent] at hRounded ⊢
    have hCarry : IsRounded (v / 2 ^ (s.exponent - 1)) (2 ^ 53) := by
      have hLow := (le_div_iff₀ hUnit').mpr hLower
      have hHigh := (div_lt_iff₀ hUnit').mpr hUpper
      refine ⟨?_, fun _ => by decide⟩
      push_cast
      exact abs_le.mpr ⟨by linarith, by linarith⟩
    rw [if_pos (hRounded.unique hCarry), sub_add_cancel, ← hPower]

/-! ## Intervals -/

/-- The number that a decimal stands for. -/
def Decimal.value (d : Decimal) : ℚ :=
  d.digits * 10 ^ d.exponent

theorem tenTo_pos (n : Nat) : 0 < tenTo n :=
  Nat.pow_pos (by decide)

theorem twoTo_pos (n : Nat) : 0 < twoTo n :=
  Nat.pow_pos (by decide)

/-- A decimal over a denominator, with powers of natural numbers only. -/
theorem Decimal.value_eq (d : Decimal) :
    d.value = d.digits * tenTo d.exponent.toNat / tenTo (-d.exponent).toNat := by
  rw [Decimal.value, zpow_eq_div_toNat, mul_div_assoc]
  simp [tenTo]

section

variable {den : Nat} (hDen : 0 < den) (a : Nat) (d : Decimal)

include hDen

theorem Decimal.le_value_iff : a * tenTo (-d.exponent).toNat ≤
    d.digits * tenTo d.exponent.toNat * den ↔ (a / den : ℚ) ≤ d.value := by
  have hScale : (0 : ℚ) < tenTo (-d.exponent).toNat := by exact_mod_cast tenTo_pos _
  have hPos : (0 : ℚ) < den := by exact_mod_cast hDen
  rw [Decimal.value_eq, div_le_div_iff₀ hPos hScale]
  exact_mod_cast Iff.rfl

theorem Decimal.value_le_iff : d.digits * tenTo d.exponent.toNat * den ≤
    a * tenTo (-d.exponent).toNat ↔ d.value ≤ (a / den : ℚ) := by
  have hScale : (0 : ℚ) < tenTo (-d.exponent).toNat := by exact_mod_cast tenTo_pos _
  have hPos : (0 : ℚ) < den := by exact_mod_cast hDen
  rw [Decimal.value_eq, div_le_div_iff₀ hScale hPos]
  exact_mod_cast Iff.rfl

end

namespace Interval

theorem den_ofScaled_pos (s : Scaled) : 0 < (ofScaled s).den :=
  Nat.mul_pos (by decide) (twoTo_pos _)

/-- A multiple of a quarter of the unit, as the interval has it over its denominator. -/
theorem quarters_div (s : Scaled) (n : Nat) :
    ((n * twoTo s.exponent.toNat : Nat) / (ofScaled s).den : ℚ) = n / 4 * 2 ^ s.exponent := by
  rw [zpow_eq_div_toNat 2 s.exponent, ofScaled]
  push_cast [twoTo, Nat.pow_eq]
  rw [mul_div_mul_comm]

theorem value_ofScaled (s : Scaled) :
    ((ofScaled s).value / (ofScaled s).den : ℚ) = s.value := by
  have hQuarters := quarters_div s (4 * s.significand)
  rw [Scaled.value]
  push_cast at hQuarters ⊢
  rw [show ((ofScaled s).value : ℚ) = 4 * s.significand * (twoTo s.exponent.toNat : Nat) by
    simp [ofScaled], hQuarters]
  ring

theorem high_ofScaled (s : Scaled) :
    ((ofScaled s).high / (ofScaled s).den : ℚ) = s.upper := by
  have hQuarters := quarters_div s (4 * s.significand + 2)
  rw [show (ofScaled s).high = (4 * s.significand + 2) * twoTo s.exponent.toNat from rfl, hQuarters,
    Scaled.upper]
  push_cast
  ring

theorem low_ofScaled {s : Scaled} (hPos : 0 < s.significand) :
    ((ofScaled s).low / (ofScaled s).den : ℚ) = s.lower := by
  obtain ⟨gap, hGap, hLow, hSmall⟩ : ∃ gap : Nat, (gap : ℚ) = 4 * s.lowerGap ∧
      (ofScaled s).low = (4 * s.significand - gap) * twoTo s.exponent.toNat ∧ gap ≤ 2 := by
    simp only [ofScaled, Bool.and_eq_true, beq_iff_eq, decide_eq_true_eq]
    rcases s.lowerGap_cases with ⟨hPower, hExponent, hGap⟩ | ⟨hOther, hGap⟩
    · refine ⟨1, by rw [hGap]; norm_num, ?_, by decide⟩
      rw [if_pos ⟨hPower, hExponent⟩]
    · have hNot : ¬(s.significand = twoTo 52 ∧ s.exponent > binary64.minExponent) := hOther
      refine ⟨2, by rw [hGap]; norm_num, ?_, le_rfl⟩
      rw [if_neg hNot]
  rw [hLow, quarters_div, Scaled.lower, Nat.cast_sub (by omega), hGap]
  push_cast
  ring

/-- **The interval of a number of double precision** holds the decimals that read back as it. -/
theorem contains_iff {s : Scaled} (hPos : 0 < s.significand) (d : Decimal) :
    (ofScaled s).contains d = true ↔ ReadsBack s d.value := by
  have hDen := den_ofScaled_pos s
  have hLow : (ofScaled s).low * tenTo (-d.exponent).toNat ≤
      d.digits * tenTo d.exponent.toNat * (ofScaled s).den ↔ s.lower ≤ d.value := by
    rw [Decimal.le_value_iff hDen, low_ofScaled hPos]
  have hHigh : d.digits * tenTo d.exponent.toNat * (ofScaled s).den ≤
      (ofScaled s).high * tenTo (-d.exponent).toNat ↔ d.value ≤ s.upper := by
    rw [Decimal.value_le_iff hDen, high_ofScaled]
  have hLow' : (ofScaled s).low * tenTo (-d.exponent).toNat <
      d.digits * tenTo d.exponent.toNat * (ofScaled s).den ↔ s.lower < d.value := by
    rw [← not_le, Decimal.value_le_iff hDen, low_ofScaled hPos, not_le]
  have hHigh' : d.digits * tenTo d.exponent.toNat * (ofScaled s).den <
      (ofScaled s).high * tenTo (-d.exponent).toNat ↔ d.value < s.upper := by
    rw [← not_le, Decimal.le_value_iff hDen, high_ofScaled, not_le]
  have hClosed : (ofScaled s).closed = true ↔ Even s.significand := by
    rw [Nat.even_iff]
    simp [ofScaled]
  simp only [contains]
  split
  case isTrue hEven =>
    rw [Bool.and_eq_true, decide_eq_true_eq, decide_eq_true_eq, hLow, hHigh]
    exact ⟨fun h => ⟨h.1, h.2, fun _ => hClosed.mp hEven⟩, fun h => ⟨h.lower_le, h.le_upper⟩⟩
  case isFalse hOdd =>
    rw [Bool.and_eq_true, decide_eq_true_eq, decide_eq_true_eq, hLow', hHigh']
    rw [hClosed] at hOdd
    constructor
    · rintro ⟨hAbove, hBelow⟩
      exact ⟨hAbove.le, hBelow.le, fun hMidpoint =>
        absurd hMidpoint (not_or.mpr ⟨hAbove.ne', hBelow.ne⟩)⟩
    · intro h
      obtain ⟨hAbove, hBelow⟩ := not_or.mp (mt h.even_of_midpoint hOdd)
      exact ⟨lt_of_le_of_ne h.lower_le (Ne.symm hAbove), lt_of_le_of_ne h.le_upper hBelow⟩

/-! ## Search -/

/-- The two neighbours on a grid. -/
def below (i : Interval) (p : ℤ) : Decimal :=
  ⟨(scaleTen i.value i.den p).1 / (scaleTen i.value i.den p).2, p⟩

/-- The neighbour on a grid that is above. -/
def above (i : Interval) (p : ℤ) : Decimal :=
  ⟨(scaleTen i.value i.den p).1 / (scaleTen i.value i.den p).2 + 1, p⟩

/-- What is found on a grid is one of the two neighbours, and lies in the interval. -/
theorem contains_of_onGrid? {i : Interval} {tie : Tie} {p : ℤ} {d : Decimal}
    (h : i.onGrid? tie p = some d) : i.contains d = true := by
  simp only [onGrid?] at h
  split at h
  case h_1 hBelow hAbove => grind
  case h_2 hBelow hAbove => grind
  case h_3 => cases h
  case h_4 hBelow hAbove =>
    split at h
    · grind
    · split at h
      · grind
      · cases tie <;> grind

/-- Where a neighbour lies in the interval, something is found. -/
theorem isSome_onGrid? {i : Interval} (tie : Tie) {p : ℤ}
    (h : i.contains (i.below p) = true ∨ i.contains (i.above p) = true) :
    (i.onGrid? tie p).isSome = true := by
  rw [below, above] at h
  simp only [onGrid?]
  split
  case h_1 => rfl
  case h_2 => rfl
  case h_3 hBelow hAbove => simp [hBelow, hAbove] at h
  case h_4 =>
    split
    · rfl
    · split
      · rfl
      · cases tie <;> rfl

/-- One of the two neighbours is at most half a step away. -/
theorem exists_neighbour {i : Interval} (hDen : 0 < i.den) (p : ℤ) :
    |(i.below p).value - i.value / i.den| ≤ 10 ^ p / 2 ∨
      |(i.above p).value - i.value / i.den| ≤ 10 ^ p / 2 := by
  have hStep : (0 : ℚ) < 10 ^ p := by positivity
  have hSteps : (i.value / i.den : ℚ) = quotient (scaleTen i.value i.den p) * 10 ^ p := by
    rw [quotient_scaleTen, div_mul_cancel₀ _ hStep.ne']
  have hHalf (n : ℚ) (h : |n - quotient (scaleTen i.value i.den p)| ≤ 1 / 2) :
      |n * 10 ^ p - i.value / i.den| ≤ 10 ^ p / 2 := by
    rw [hSteps, ← sub_mul, abs_mul, abs_of_pos hStep]
    linarith [mul_le_mul_of_nonneg_right h hStep.le]
  exact (exists_near_quotient (scaleTen_snd_pos i.value p hDen)).imp (hHalf _) (hHalf _)

end Interval

/-- The lower midpoint is at least half the number. -/
theorem Scaled.value_half_le {s : Scaled} (hPos : 0 < s.significand) :
    s.value / 2 ≤ s.lower := by
  have hOne : (1 : ℚ) ≤ s.significand := by exact_mod_cast hPos
  calc s.value / 2 = s.significand / 2 * 2 ^ s.exponent := (div_mul_eq_mul_div ..).symm
    _ ≤ s.lower := by
        refine mul_le_mul_of_nonneg_right ?_ (by positivity)
        linarith [s.lowerGap_le]

/-- The greatest and the least positive numbers of doubles. -/
theorem Scaled.value_bounds {s : Scaled} (hDouble : s.IsDouble) (hExponent : s.exponent ≤ 971)
    (hPos : 0 < s.significand) : (2 : ℚ) ^ (-1074 : ℤ) ≤ s.value ∧ s.upper ≤ 2 ^ (1024 : ℤ) := by
  have hOne : (1 : ℚ) ≤ s.significand := by exact_mod_cast hPos
  have hBits : (s.significand : ℚ) + 1 ≤ 2 ^ 53 := by exact_mod_cast hDouble.significand_lt
  constructor
  · calc (2 : ℚ) ^ (-1074 : ℤ) ≤ 1 * 2 ^ s.exponent := by
          rw [one_mul]
          exact zpow_le_zpow_right₀ (by norm_num) hDouble.le_exponent
      _ ≤ s.value := mul_le_mul_of_nonneg_right hOne (by positivity)
  · calc s.upper ≤ 2 ^ 53 * 2 ^ s.exponent :=
          mul_le_mul_of_nonneg_right (by linarith) (by positivity)
      _ = 2 ^ (53 + s.exponent) := by
          rw [zpow_add₀ two_ne_zero]
          norm_num
      _ ≤ 2 ^ (1024 : ℤ) := zpow_le_zpow_right₀ (by norm_num) (by omega)

/-- **Seventeen digits suffice**: half a step at the seventeenth digit is less than the way to the
lower midpoint. -/
theorem seventeen_digits_suffice {s : Scaled} {top : ℤ} (hDouble : s.IsDouble)
    (hTop : (10 : ℚ) ^ top ≤ s.value) :
    (10 : ℚ) ^ (top - 16) / 2 < s.lowerGap * 2 ^ s.exponent := by
  have hUnit : (0 : ℚ) < 2 ^ s.exponent := by positivity
  have hStep : (10 : ℚ) ^ (top - 16) / 2 ≤ s.significand / (2 * 10 ^ 16) * 2 ^ s.exponent := by
    calc (10 : ℚ) ^ (top - 16) / 2 = 10 ^ top / (2 * 10 ^ 16) := by
          rw [zpow_sub₀ (by norm_num), div_div, mul_comm]
          norm_num
      _ ≤ s.value / (2 * 10 ^ 16) := by gcongr
      _ = s.significand / (2 * 10 ^ 16) * 2 ^ s.exponent := mul_div_right_comm ..
  refine hStep.trans_lt (mul_lt_mul_of_pos_right ?_ hUnit)
  rcases s.lowerGap_cases with ⟨hPower, -, hGap⟩ | ⟨-, hGap⟩
  · rw [hGap, hPower]
    norm_num
  · have hBits : (s.significand : ℚ) < 2 ^ 53 := by exact_mod_cast hDouble.significand_lt
    rw [hGap, div_lt_iff₀ (by norm_num)]
    linarith

/-- The place of the first digit of a positive finite double. -/
def Double.firstPlace (x : Double) : ℤ :=
  floorLogTen (Interval.ofScaled x.scaled).value (Interval.ofScaled x.scaled).den

theorem Double.shortest_eq (x : Double) (tie : Tie) :
    x.shortest tie = ((List.range 18).findSome? fun (n : Nat) =>
      (Interval.ofScaled x.scaled).onGrid? tie (x.firstPlace + 1 - n)).getD ⟨0, 0⟩ :=
  rfl

section

variable {x : Double} (hFinite : x.isFinite = true) (hPos : 0 < x.significand)

include hFinite hPos

theorem zpow_firstPlace_le : (10 : ℚ) ^ x.firstPlace ≤ x.scaled.value := by
  obtain ⟨hDouble, hExponent⟩ := Double.isDouble_scaled hFinite
  obtain ⟨hLow, hHigh⟩ := Scaled.value_bounds hDouble hExponent hPos
  have hUpper : x.scaled.value ≤ x.scaled.upper :=
    mul_le_mul_of_nonneg_right (by linarith) (by positivity)
  have hNum : 0 < (Interval.ofScaled x.scaled).value :=
    Nat.mul_pos (Nat.mul_pos (by decide) hPos) (twoTo_pos _)
  rw [Double.firstPlace]
  rw [← Interval.value_ofScaled] at hLow hUpper ⊢
  apply zpow_floorLogTen_le hNum (Interval.den_ofScaled_pos _)
  · exact le_trans (zpow_le_zpow_right₀ (by norm_num) (by norm_num)) hLow
  · exact (hUpper.trans hHigh).trans (zpow_le_zpow_right₀ (by norm_num) (by norm_num))

/-- On the grid of the seventeenth digit something is found. -/
theorem isSome_seventeenth (tie : Tie) : ((Interval.ofScaled x.scaled).onGrid? tie
    (x.firstPlace + 1 - (17 : Nat))).isSome = true := by
  obtain ⟨hDouble, -⟩ := Double.isDouble_scaled hFinite
  have hPlace : x.firstPlace + 1 - (17 : Nat) = x.firstPlace - 16 := by omega
  have hHalf := seventeen_digits_suffice hDouble (zpow_firstPlace_le hFinite hPos)
  have hNear := Interval.exists_neighbour (Interval.den_ofScaled_pos x.scaled) (x.firstPlace - 16)
  rw [Interval.value_ofScaled] at hNear
  apply Interval.isSome_onGrid?
  rw [hPlace, Interval.contains_iff hPos, Interval.contains_iff hPos]
  exact hNear.imp (fun hClose => readsBack_of_abs_lt (hClose.trans_lt hHalf))
    fun hClose => readsBack_of_abs_lt (hClose.trans_lt hHalf)

/-- **The shortest decimal of a positive finite double reads back as it.** -/
theorem readsBack_shortest (tie : Tie) : ReadsBack x.scaled (x.shortest tie).value := by
  have hFound : ((List.range 18).findSome? fun (n : Nat) =>
      (Interval.ofScaled x.scaled).onGrid? tie (x.firstPlace + 1 - n)).isSome = true := by
    rw [List.findSome?_isSome_iff]
    exact ⟨17, by decide, isSome_seventeenth hFinite hPos tie⟩
  obtain ⟨d, hSome⟩ := Option.isSome_iff_exists.mp hFound
  obtain ⟨n, -, hGrid⟩ := List.exists_of_findSome?_eq_some hSome
  -- Whatever grid the search stops at, what it finds there lies in the interval.
  rw [Double.shortest_eq, hSome, Option.getD_some, ← Interval.contains_iff hPos]
  exact Interval.contains_of_onGrid? hGrid

end

end SqlMetrics.Number
