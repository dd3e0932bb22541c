import Mathlib
import SqlMetrics.Number.Double

/-!
# Rounding, exactly

What the rounding functions give, said of the rational numbers that are rounded.

- **Quotients**: `quotient_scaleTwo` and `quotient_scaleTen` say what scaling does to a quotient.
- **Natural numbers**: `IsRounded` is rounding to nearest with ties to even, and there is one number
  that a rational rounds to.
- **Logarithms**: `floorLogTwo_eq_log` and `zpow_floorLogTen_le`.
- **Double precision**: `exists_rounded_nearest` is what the other modules know of rounding to
  double precision; from it follow that the result is a number of the format, and that no such
  number is nearer.
-/

namespace SqlMetrics.Number

/-! ## Quotients -/

/-- The rational number of a numerator and a denominator. -/
def quotient (p : Nat × Nat) : ℚ :=
  p.1 / p.2

theorem zpow_eq_div_toNat (b : ℚ) (q : ℤ) :
    b ^ q = b ^ q.toNat / b ^ (-q).toNat := by
  rcases Int.le_total 0 q with hSign | hSign
  · have hOther : (-q).toNat = 0 := by omega
    rw [hOther, pow_zero, div_one, ← zpow_natCast, Int.toNat_of_nonneg hSign]
  · have hOther : q.toNat = 0 := by omega
    rw [hOther, pow_zero, ← zpow_natCast, Int.toNat_of_nonneg (by omega), zpow_neg, one_div,
      inv_inv]

theorem quotient_scaled (a d x y : ℚ) : a * x / (d * y) = a / d / (y / x) := by
  rw [div_div_eq_mul_div, div_mul_eq_mul_div, div_div]

/-- Scaling divides a quotient by a power of two. -/
theorem quotient_scaleTwo (num den : Nat) (q : ℤ) :
    quotient (scaleTwo num den q) = num / den / 2 ^ q := by
  rw [zpow_eq_div_toNat, ← quotient_scaled]
  simp [quotient, scaleTwo, twoTo]

/-- Scaling divides a quotient by a power of ten. -/
theorem quotient_scaleTen (num den : Nat) (p : ℤ) :
    quotient (scaleTen num den p) = num / den / 10 ^ p := by
  rw [zpow_eq_div_toNat, ← quotient_scaled]
  simp [quotient, scaleTen, tenTo]

theorem scaleTwo_snd_pos {den : Nat} (num : Nat) (q : ℤ) (hDen : 0 < den) :
    0 < (scaleTwo num den q).2 :=
  Nat.mul_pos hDen (Nat.pow_pos (by decide))

theorem scaleTen_snd_pos {den : Nat} (num : Nat) (p : ℤ) (hDen : 0 < den) :
    0 < (scaleTen num den p).2 :=
  Nat.mul_pos hDen (Nat.pow_pos (by decide))

theorem quotient_lt_one_iff {p : Nat × Nat} (hDen : 0 < p.2) : quotient p < 1 ↔ p.1 < p.2 := by
  rw [quotient, div_lt_one (by exact_mod_cast hDen), Nat.cast_lt]

theorem one_le_quotient_iff {p : Nat × Nat} (hDen : 0 < p.2) : 1 ≤ quotient p ↔ p.2 ≤ p.1 := by
  rw [quotient, one_le_div (by exact_mod_cast hDen), Nat.cast_le]

/-- A quotient is its whole part and the remainder over the denominator. -/
theorem quotient_eq_div_add_mod {den : Nat} (num : Nat) (hDen : 0 < den) :
    (num / den : ℚ) = (num / den : Nat) + (num % den : Nat) / den := by
  have hPos : (0 : ℚ) < den := by exact_mod_cast hDen
  have hSplit : (den * (num / den : Nat) + (num % den : Nat) : ℚ) = num := by
    exact_mod_cast Nat.div_add_mod num den
  rw [div_eq_iff hPos.ne', add_mul, div_mul_cancel₀ _ hPos.ne']
  linarith

/-- The whole part of a quotient or the number after it is at most one half away. -/
theorem exists_near_quotient {p : Nat × Nat} (hDen : 0 < p.2) :
    |((p.1 / p.2 : Nat) : ℚ) - quotient p| ≤ 1 / 2 ∨
      |((p.1 / p.2 + 1 : Nat) : ℚ) - quotient p| ≤ 1 / 2 := by
  have hPos : (0 : ℚ) < p.2 := by exact_mod_cast hDen
  have hRest : (0 : ℚ) ≤ (p.1 % p.2 : Nat) / p.2 := by positivity
  have hLess : ((p.1 % p.2 : Nat) : ℚ) / p.2 < 1 := by
    rw [div_lt_one hPos]
    exact_mod_cast Nat.mod_lt _ hDen
  rw [quotient, quotient_eq_div_add_mod p.1 hDen]
  push_cast
  rcases le_total (((p.1 % p.2 : Nat) : ℚ) / p.2) (1 / 2) with hLow | hHigh
  · exact .inl (abs_le.mpr ⟨by linarith, by linarith⟩)
  · exact .inr (abs_le.mpr ⟨by linarith, by linarith⟩)

/-! ## Natural numbers -/

/-- A number rounds to a natural number that is nearest to it, the even one of two. -/
structure IsRounded (v : ℚ) (m : Nat) : Prop where
  near : |v - m| ≤ 1 / 2
  even_of_tie : |v - m| = 1 / 2 → Even m

/-- Two natural numbers are no farther apart than they are from a third number together. -/
theorem abs_sub_le_of_between (v : ℚ) (m k : Nat) : |(m : ℚ) - k| ≤ |v - m| + |v - k| := by
  rw [abs_sub_comm v m]
  exact abs_sub_le (m : ℚ) v k

theorem one_le_abs_sub {m k : Nat} (h : m ≠ k) : 1 ≤ |(m : ℚ) - k| := by
  exact_mod_cast Int.one_le_abs (show (m : ℤ) - k ≠ 0 by omega)

/-- Rounding to nearest with ties to even leaves no choice. -/
theorem IsRounded.unique {v : ℚ} {m k : Nat} (h : IsRounded v m) (hOther : IsRounded v k) :
    m = k := by
  by_contra hNe
  -- Two numbers of this kind would be neighbours in a tie, and both even.
  have hSum := abs_sub_le_of_between v m k
  have hApart := one_le_abs_sub hNe
  have hEven := Nat.even_iff.mp (h.even_of_tie (by linarith [h.near, hOther.near]))
  have hEven' := Nat.even_iff.mp (hOther.even_of_tie (by linarith [h.near, hOther.near]))
  obtain ⟨hLow, hHigh⟩ := abs_le.mp (hSum.trans (add_le_add h.near hOther.near))
  have hLow' : k ≤ m + 1 := by exact_mod_cast (by linarith : (k : ℚ) ≤ m + 1)
  have hHigh' : m ≤ k + 1 := by exact_mod_cast (by linarith : (m : ℚ) ≤ k + 1)
  omega

/-- No natural number is nearer than the one that a number rounds to. -/
theorem IsRounded.abs_sub_le {v : ℚ} {m : Nat} (h : IsRounded v m) (k : Nat) :
    |v - m| ≤ |v - k| := by
  rcases eq_or_ne m k with rfl | hNe
  · exact le_rfl
  · linarith [abs_sub_le_of_between v m k, one_le_abs_sub hNe, h.near]

theorem isRounded_roundHalfEven {den : Nat} (num : Nat) (hDen : 0 < den) :
    IsRounded (num / den) (roundHalfEven num den) := by
  have hPos : (0 : ℚ) < den := by exact_mod_cast hDen
  have hRest : ((num % den : Nat) : ℚ) / den < 1 := by
    rw [div_lt_one hPos]
    exact_mod_cast Nat.mod_lt num hDen
  have hHalf : ((num % den : Nat) : ℚ) / den * 2 * den = 2 * (num % den : Nat) := by
    field_simp
  rw [quotient_eq_div_add_mod num hDen]
  have hFraction : (0 : ℚ) ≤ (num % den : Nat) / den := by positivity
  simp only [roundHalfEven]
  generalize ((num % den : Nat) : ℚ) / den = fraction at *
  generalize hQuotient : num / den = q
  generalize hRemainder : num % den = r at *
  -- By how the fraction compares to one half.
  split
  case isTrue hBelow =>
    have hLess : (2 * r : ℚ) < den := by exact_mod_cast hBelow
    have hSmall : fraction < 1 / 2 := by nlinarith
    have hDistance : |(q : ℚ) + fraction - q| = fraction := by
      rw [add_sub_cancel_left, abs_of_nonneg hFraction]
    exact ⟨by linarith, fun hTie => absurd hTie (by linarith)⟩
  case isFalse hNotBelow =>
    have hDistance : |(q : ℚ) + fraction - (q + 1 : Nat)| = 1 - fraction := by
      push_cast
      rw [abs_of_nonpos] <;> linarith
    split
    case isTrue hAbove =>
      have hMore : (den : ℚ) < 2 * r := by exact_mod_cast hAbove
      have hLarge : 1 / 2 < fraction := by nlinarith
      exact ⟨by linarith, fun hTie => absurd hTie (by linarith)⟩
    case isFalse hNotAbove =>
      have hTie : (2 * r : ℚ) = den := by exact_mod_cast (by omega : 2 * r = den)
      have hMiddle : fraction = 1 / 2 := by
        have hSame : (fraction * 2 - 1) * den = 0 := by linarith
        rcases mul_eq_zero.mp hSame with hZero | hZero
        · linarith
        · linarith
      split
      case isTrue hEven =>
        refine ⟨?_, fun _ => Nat.even_iff.mpr (by simpa using hEven)⟩
        rw [add_sub_cancel_left, abs_of_nonneg hFraction, hMiddle]
      case isFalse hOdd =>
        refine ⟨by linarith, fun _ => Nat.even_iff.mpr ?_⟩
        have hOne : q % 2 ≠ 0 := by simpa using hOdd
        omega

theorem IsRounded.roundHalfEven_eq {num den m : Nat} (hDen : 0 < den)
    (h : IsRounded (num / den) m) : roundHalfEven num den = m :=
  (isRounded_roundHalfEven num hDen).unique h

/-! ## Logarithms -/

section

variable {v : ℚ} (hPos : 0 < v) (q : ℤ)

include hPos

theorem two_zpow_le_iff : (2 : ℚ) ^ q ≤ v ↔ q ≤ Int.log 2 v := by
  exact_mod_cast Int.zpow_le_iff_le_log (R := ℚ) (b := 2) (by decide) hPos

theorem lt_two_zpow_iff : v < 2 ^ q ↔ Int.log 2 v < q := by
  exact_mod_cast Int.lt_zpow_iff_log_lt (R := ℚ) (b := 2) (by decide) hPos

end

/-- The greatest power of two that is not above a natural number, as a rational one. -/
theorem zpow_log2_le {n : Nat} (h : 0 < n) : (2 : ℚ) ^ (n.log2 : ℤ) ≤ n := by
  rw [zpow_natCast]
  exact_mod_cast Nat.log2_self_le h.ne'

theorem lt_zpow_log2 (n : Nat) : (n : ℚ) < 2 ^ (n.log2 + 1 : ℤ) := by
  have hLt : (n : ℚ) < 2 ^ (n.log2 + 1) := by exact_mod_cast Nat.lt_log2_self
  exact_mod_cast hLt

theorem floorLogTwo_eq_log {num den : Nat} (hNum : 0 < num) (hDen : 0 < den) :
    floorLogTwo num den = Int.log 2 (num / den : ℚ) := by
  have hDenPos : (0 : ℚ) < den := by exact_mod_cast hDen
  have hPos : (0 : ℚ) < num / den := div_pos (by exact_mod_cast hNum) hDenPos
  -- The difference of the two logarithms is the right exponent or one too much.
  have hLow : (2 : ℚ) ^ ((num.log2 : ℤ) - den.log2 - 1) ≤ num / den := by
    rw [le_div_iff₀ hDenPos]
    calc (2 : ℚ) ^ ((num.log2 : ℤ) - den.log2 - 1) * den
        ≤ 2 ^ ((num.log2 : ℤ) - den.log2 - 1) * 2 ^ (den.log2 + 1 : ℤ) := by
          gcongr
          exact (lt_zpow_log2 den).le
      _ = 2 ^ (num.log2 : ℤ) := by
          rw [← zpow_add₀ two_ne_zero]
          congr 1
          omega
      _ ≤ num := zpow_log2_le hNum
  have hHigh : (num / den : ℚ) < 2 ^ ((num.log2 : ℤ) - den.log2 + 1) := by
    rw [div_lt_iff₀ hDenPos]
    calc (num : ℚ) < 2 ^ (num.log2 + 1 : ℤ) := lt_zpow_log2 num
      _ = 2 ^ ((num.log2 : ℤ) - den.log2 + 1) * 2 ^ (den.log2 : ℤ) := by
          rw [← zpow_add₀ two_ne_zero]
          congr 1
          omega
      _ ≤ 2 ^ ((num.log2 : ℤ) - den.log2 + 1) * den := by
          gcongr
          exact zpow_log2_le hDen
  have hGuess (q : ℤ) : (scaleTwo num den q).1 < (scaleTwo num den q).2 ↔
      (num / den : ℚ) < 2 ^ q := by
    rw [← quotient_lt_one_iff (scaleTwo_snd_pos num q hDen), quotient_scaleTwo,
      div_lt_one (by positivity)]
  rw [two_zpow_le_iff hPos] at hLow
  rw [lt_two_zpow_iff hPos] at hHigh
  simp only [floorLogTwo, hGuess, lt_two_zpow_iff hPos]
  split <;> omega

/-- A power of ten beside a power of two whose exponent is at least `3.32203` times as great: `59`
digits are less than `196` bits. -/
theorem tenTo_le_twoTo {g l : Nat} (h : 196 * g ≤ 59 * l) : 10 ^ g ≤ 2 ^ l := by
  rw [← Nat.pow_le_pow_iff_left (n := 59) (by decide), ← pow_mul, ← pow_mul]
  calc 10 ^ (g * 59) = (10 ^ 59) ^ g := by rw [← pow_mul, mul_comm]
    _ ≤ (2 ^ 196) ^ g := Nat.pow_le_pow_left (by norm_num) g
    _ = 2 ^ (196 * g) := by rw [← pow_mul]
    _ ≤ 2 ^ (l * 59) := Nat.pow_le_pow_right (by decide) (by omega)

/-- A power of two beside a power of ten whose exponent is at least `0.3011` times as great: `93`
bits are less than `28` digits. -/
theorem twoTo_le_tenTo {g l : Nat} (h : 28 * l ≤ 93 * g) : 2 ^ l ≤ 10 ^ g := by
  rw [← Nat.pow_le_pow_iff_left (n := 28) (by decide), ← pow_mul, ← pow_mul]
  calc 2 ^ (l * 28) ≤ 2 ^ (93 * g) := Nat.pow_le_pow_right (by decide) (by omega)
    _ = (2 ^ 93) ^ g := by rw [← pow_mul]
    _ ≤ (10 ^ 28) ^ g := Nat.pow_le_pow_left (by norm_num) g
    _ = 10 ^ (g * 28) := by rw [← pow_mul, mul_comm]

/-- One less than the guess of a decimal logarithm is never too much, for the exponents of two that
doubles have. -/
theorem zpow_guess_le {q : ℤ} (hLow : -2000 ≤ q) (hHigh : q ≤ 2000) :
    (10 : ℚ) ^ (q * 30103 / 100000 - 1) ≤ 2 ^ q := by
  obtain ⟨g, hExponent⟩ : ∃ g, q * 30103 / 100000 - 1 = g := ⟨_, rfl⟩
  rw [hExponent]
  rcases Int.le_total 0 g with hGuess | hGuess
  · obtain ⟨k, rfl⟩ := Int.eq_ofNat_of_zero_le hGuess
    obtain ⟨l, rfl⟩ := Int.eq_ofNat_of_zero_le (show 0 ≤ q by omega)
    rw [zpow_natCast, zpow_natCast]
    exact_mod_cast tenTo_le_twoTo (by omega)
  · rcases Int.le_total 0 q with hSign | hSign
    · calc (10 : ℚ) ^ g ≤ 1 := zpow_le_one_of_nonpos₀ (by norm_num) hGuess
        _ ≤ 2 ^ q := one_le_zpow₀ (by norm_num) hSign
    · obtain ⟨k, rfl⟩ := Int.exists_eq_neg_ofNat hGuess
      obtain ⟨l, rfl⟩ := Int.exists_eq_neg_ofNat hSign
      rw [zpow_neg, zpow_neg, zpow_natCast, zpow_natCast, inv_le_inv₀ (by positivity)
        (by positivity)]
      exact_mod_cast twoTo_le_tenTo (by omega)

/-- The decimal logarithm of a quotient is never too much. -/
theorem zpow_floorLogTen_le {num den : Nat} (hNum : 0 < num) (hDen : 0 < den)
    (hLow : (2 : ℚ) ^ (-2000 : ℤ) ≤ num / den) (hHigh : (num / den : ℚ) ≤ 2 ^ (2000 : ℤ)) :
    (10 : ℚ) ^ floorLogTen num den ≤ num / den := by
  have hPos : (0 : ℚ) < num / den := by
    have hNumPos : (0 : ℚ) < num := by exact_mod_cast hNum
    have hDenPos : (0 : ℚ) < den := by exact_mod_cast hDen
    positivity
  have hReaches (p : ℤ) : (scaleTen num den p).2 ≤ (scaleTen num den p).1 ↔
      (10 : ℚ) ^ p ≤ num / den := by
    rw [← one_le_quotient_iff (scaleTen_snd_pos num p hDen), quotient_scaleTen,
      one_le_div (by positivity)]
  have hPower : (2 : ℚ) ^ Int.log 2 (num / den : ℚ) ≤ num / den :=
    (two_zpow_le_iff hPos _).mpr le_rfl
  have hGreatest : Int.log 2 (num / den : ℚ) ≤ 2000 := by
    rw [← zpow_le_zpow_iff_right₀ (a := (2 : ℚ)) (by norm_num)]
    exact hPower.trans hHigh
  simp only [floorLogTen, decide_eq_true_eq, hReaches, floorLogTwo_eq_log hNum hDen]
  split
  case isTrue hNext => exact hNext
  case isFalse =>
    split
    case isTrue hGuess => exact hGuess
    case isFalse =>
      exact (zpow_guess_le ((two_zpow_le_iff hPos _).mp hLow) hGreatest).trans hPower

/-! ## Double precision -/

/-- The rational number that a scaled significand stands for. -/
def Scaled.value (s : Scaled) : ℚ :=
  s.significand * 2 ^ s.exponent

/-- The numbers of double precision, each in the one way in which it is written: with a significand
of `53` bits, or with the least exponent.  There is no greatest exponent here. -/
structure Scaled.IsDouble (s : Scaled) : Prop where
  significand_lt : s.significand < 2 ^ 53
  le_exponent : -1074 ≤ s.exponent
  normal : s.exponent = -1074 ∨ 2 ^ 52 ≤ s.significand

/-- The exponent with which a positive number is written after it has been rounded, if that does not
take it to the next power of two. -/
def roundingExponent (v : ℚ) : ℤ :=
  max (Int.log 2 v - 52) (-1074)

/-- **Rounding to double precision** rounds the significand that belongs to the exponent; a
significand that is rounded up to `54` bits is halved. -/
theorem exists_rounded_nearest {num den : Nat} (hNum : 0 < num) (hDen : 0 < den) :
    ∃ m, IsRounded (num / den / 2 ^ roundingExponent (num / den)) m ∧
      binary64.nearest num den =
        if m = 2 ^ 53 then ⟨2 ^ 52, roundingExponent (num / den) + 1⟩
        else ⟨m, roundingExponent (num / den)⟩ := by
  have hExponent : max (floorLogTwo num den - (binary64.precision - 1 : Nat))
      binary64.minExponent = roundingExponent (num / den) := by
    rw [floorLogTwo_eq_log hNum hDen]
    rfl
  refine ⟨roundHalfEven (scaleTwo num den (roundingExponent (num / den))).1
    (scaleTwo num den (roundingExponent (num / den))).2, ?_, ?_⟩
  · rw [← quotient_scaleTwo]
    exact isRounded_roundHalfEven _ (scaleTwo_snd_pos num _ hDen)
  · simp only [BinaryFormat.nearest, beq_iff_eq, hNum.ne', if_false, hExponent]
    have hBits : twoTo binary64.precision = 2 ^ 53 := rfl
    rw [hBits]
    generalize roundHalfEven _ _ = m
    split
    case isTrue hCarry =>
      rw [hCarry]
      rfl
    case isFalse hNone => rfl

/-- The scaled number has `53` bits before the point at most, and exactly that many if its exponent
is not the least one. -/
theorem scaled_bounds {v : ℚ} (hPos : 0 < v) :
    v / 2 ^ roundingExponent v < 2 ^ 53 ∧
      (roundingExponent v = -1074 ∨ 2 ^ 52 ≤ v / 2 ^ roundingExponent v) := by
  have hLow : (2 : ℚ) ^ Int.log 2 v ≤ v := (two_zpow_le_iff hPos _).mpr le_rfl
  have hHigh : v < 2 ^ (Int.log 2 v + 1) := (lt_two_zpow_iff hPos _).mpr (lt_add_one _)
  constructor
  · rw [div_lt_iff₀ (by positivity), ← zpow_natCast, ← zpow_add₀ two_ne_zero]
    exact hHigh.trans_le (zpow_le_zpow_right₀ (by norm_num) (by rw [roundingExponent]; omega))
  · rcases le_total (Int.log 2 v - 52) (-1074) with hLeast | hNormal
    · exact .inl (max_eq_right hLeast)
    · right
      rw [le_div_iff₀ (by positivity), ← zpow_natCast, ← zpow_add₀ two_ne_zero, roundingExponent,
        max_eq_left hNormal]
      exact le_of_eq_of_le (by congr 1; omega) hLow

section

variable {num den : Nat} (hNum : 0 < num) (hDen : 0 < den)

include hNum hDen

theorem quotient_pos : (0 : ℚ) < num / den :=
  div_pos (by exact_mod_cast hNum) (by exact_mod_cast hDen)

/-- What a number rounds to is a number of double precision. -/
theorem isDouble_nearest : (binary64.nearest num den).IsDouble := by
  obtain ⟨m, hRounded, hNearest⟩ := exists_rounded_nearest hNum hDen
  obtain ⟨hHigh, hLow⟩ := scaled_bounds (quotient_pos hNum hDen)
  obtain ⟨hAbove, hBelow⟩ := abs_le.mp hRounded.near
  have hLeast : -1074 ≤ roundingExponent (num / den) := le_max_right _ _
  rw [hNearest]
  split
  case isTrue => exact ⟨by norm_num, by dsimp only; omega, .inr le_rfl⟩
  case isFalse hNe =>
    have hBits : m < 2 ^ 53 + 1 := by
      exact_mod_cast (by push_cast; linarith : (m : ℚ) < (2 ^ 53 + 1 : Nat))
    refine ⟨by dsimp only; omega, hLeast, hLow.imp id fun hNormal => ?_⟩
    have hMany : 2 ^ 52 < m + 1 := by
      exact_mod_cast (by push_cast; linarith : ((2 ^ 52 : Nat) : ℚ) < (m + 1 : Nat))
    dsimp only
    omega

/-- The value of what a number rounds to, in the exponent of the number. -/
theorem exists_value_nearest : ∃ m, IsRounded (num / den / 2 ^ roundingExponent (num / den)) m ∧
    (binary64.nearest num den).value = m * 2 ^ roundingExponent (num / den) := by
  obtain ⟨m, hRounded, hNearest⟩ := exists_rounded_nearest hNum hDen
  refine ⟨m, hRounded, ?_⟩
  rw [hNearest]
  split
  case isTrue hCarry =>
    rw [hCarry, Scaled.value, zpow_add₀ two_ne_zero]
    push_cast
    ring
  case isFalse => rfl

/-- **No number of double precision is nearer** than the one that a number rounds to. -/
theorem abs_sub_nearest_le {k : Nat} {e : ℤ} (hBits : k ≤ 2 ^ 53) (hLeast : -1074 ≤ e) :
    |(num / den : ℚ) - (binary64.nearest num den).value| ≤ |(num / den : ℚ) - k * 2 ^ e| := by
  obtain ⟨m, hRounded, hValue⟩ := exists_value_nearest hNum hDen
  have hPos := quotient_pos hNum hDen
  obtain ⟨-, hNormal⟩ := scaled_bounds hPos
  rw [hValue]
  generalize (num / den : ℚ) = v at *
  generalize roundingExponent v = q at *
  have hUnit : (0 : ℚ) < 2 ^ q := by positivity
  -- In units of the exponent of the number.
  have hUnits (x : ℚ) : |v - x| = |v / 2 ^ q - x / 2 ^ q| * 2 ^ q := by
    rw [← abs_of_pos hUnit, ← abs_mul, abs_of_pos hUnit, sub_mul, div_mul_cancel₀ _ hUnit.ne',
      div_mul_cancel₀ _ hUnit.ne']
  rw [hUnits, hUnits (k * 2 ^ e), mul_div_cancel_right₀ _ hUnit.ne']
  refine mul_le_mul_of_nonneg_right ?_ hUnit.le
  rcases le_or_gt q e with hCoarse | hFine
  · -- The other one is a whole number of units.
    obtain ⟨d, hDifference⟩ := Int.eq_ofNat_of_zero_le (sub_nonneg.mpr hCoarse)
    have hWhole : k * 2 ^ e / 2 ^ q = ((k * 2 ^ d : Nat) : ℚ) := by
      rw [mul_div_assoc, ← zpow_sub₀ two_ne_zero, hDifference, zpow_natCast]
      push_cast
      rfl
    rw [hWhole]
    exact hRounded.abs_sub_le _
  · -- The other one is not above `2 ^ 52` units, and the number is not below.
    have hSmall : (k : ℚ) * 2 ^ e / 2 ^ q ≤ (2 ^ 52 : Nat) := by
      rw [div_le_iff₀ hUnit]
      calc (k : ℚ) * 2 ^ e ≤ 2 ^ 53 * 2 ^ (q - 1) := by
            gcongr
            · exact_mod_cast hBits
            · norm_num
            · omega
        _ = (2 ^ 52 : Nat) * 2 ^ q := by
            rw [zpow_sub_one₀ two_ne_zero]
            push_cast
            ring
    have hLarge : ((2 ^ 52 : Nat) : ℚ) ≤ v / 2 ^ q := by
      push_cast
      exact hNormal.resolve_left (by omega)
    calc |v / 2 ^ q - m| ≤ |v / 2 ^ q - (2 ^ 52 : Nat)| := hRounded.abs_sub_le _
      _ = v / 2 ^ q - (2 ^ 52 : Nat) := abs_of_nonneg (sub_nonneg.mpr hLarge)
      _ ≤ v / 2 ^ q - k * 2 ^ e / 2 ^ q := by linarith
      _ ≤ |v / 2 ^ q - k * 2 ^ e / 2 ^ q| := le_abs_self _

end

end SqlMetrics.Number
