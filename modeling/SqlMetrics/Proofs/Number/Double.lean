import SqlMetrics.Proofs.Number.Rounding

/-!
# The bits of doubles

A finite double is a sign and a number of double precision, and each of these is a finite double.

- **Fields**: the sign, the exponent bits and the fraction of a double that is put together from a
  sign and a magnitude.
- **Numbers**: `ofScaled_scaled` and `scaled_ofScaled` lead from doubles to signed numbers and back.
-/

namespace SqlMetrics.Number.Double

/-! ## Fields -/

theorem toNat_bits_ofMagnitude {negative : Bool} {magnitude : Nat} (h : magnitude < 2 ^ 63) :
    (ofMagnitude negative magnitude).bits.toNat =
      if negative then magnitude + 2 ^ 63 else magnitude := by
  rw [ofMagnitude, UInt64.toNat_ofNat']
  cases negative with
  | false => exact Nat.mod_eq_of_lt (by simp; omega)
  | true => exact Nat.mod_eq_of_lt (by simp [twoTo]; omega)

theorem isNegative_ofMagnitude {negative : Bool} {magnitude : Nat} (h : magnitude < 2 ^ 63) :
    (ofMagnitude negative magnitude).isNegative = negative := by
  rw [isNegative, toNat_bits_ofMagnitude h]
  cases negative with
  | false => simp [twoTo]; omega
  | true => simp [twoTo]

theorem exponentField_ofMagnitude {negative : Bool} {magnitude : Nat} (h : magnitude < 2 ^ 63) :
    (ofMagnitude negative magnitude).exponentField = magnitude / 2 ^ 52 := by
  rw [exponentField, toNat_bits_ofMagnitude h]
  cases negative with
  | false => simp [twoTo]; omega
  | true => simp [twoTo]; omega

theorem fraction_ofMagnitude {negative : Bool} {magnitude : Nat} (h : magnitude < 2 ^ 63) :
    (ofMagnitude negative magnitude).fraction = magnitude % 2 ^ 52 := by
  rw [fraction, toNat_bits_ofMagnitude h]
  cases negative with
  | false => simp [twoTo]
  | true => simp [twoTo]; omega

theorem fraction_lt (x : Double) : x.fraction < 2 ^ 52 :=
  Nat.mod_lt _ (by decide)

theorem exponentField_lt (x : Double) : x.exponentField < 2 ^ 11 :=
  Nat.mod_lt _ (by decide)

/-- A double is its sign over its exponent bits and its fraction. -/
theorem ofMagnitude_fields (x : Double) :
    ofMagnitude x.isNegative (x.exponentField * 2 ^ 52 + x.fraction) = x := by
  have hBits : x.bits.toNat < 2 ^ 64 := x.bits.toNat_lt
  obtain ⟨bits⟩ := x
  rw [ofMagnitude]
  congr 1
  apply UInt64.toNat_inj.mp
  simp only [isNegative, exponentField, fraction, twoTo, Nat.pow_eq, decide_eq_true_eq,
    UInt64.toNat_ofNat'] at *
  split <;> omega

/-! ## Numbers -/

/-- The magnitude of a finite double. -/
def scaled (x : Double) : Scaled :=
  ⟨x.significand, x.exponent⟩

theorem isFinite_iff {x : Double} : x.isFinite = true ↔ x.exponentField ≠ 2047 := by
  simp [isFinite]

/-- The magnitude of a double by its fields: numbers with the least exponent bits have no leading
one. -/
theorem scaled_eq (x : Double) :
    x.scaled = if x.exponentField = 0 then ⟨x.fraction, -1074⟩
      else ⟨x.fraction + 2 ^ 52, x.exponentField - 1075⟩ := by
  simp only [scaled, significand, exponent, beq_iff_eq]
  split <;> rfl

/-- The magnitude of a finite double is a number of double precision. -/
theorem isDouble_scaled {x : Double} (h : x.isFinite = true) :
    x.scaled.IsDouble ∧ x.scaled.exponent ≤ 971 := by
  rw [isFinite_iff] at h
  have hFraction := x.fraction_lt
  have hField := x.exponentField_lt
  rw [scaled_eq]
  split
  case isTrue => exact ⟨⟨hFraction.trans (by norm_num), le_rfl, .inl rfl⟩, by norm_num⟩
  case isFalse => exact ⟨⟨by grind, by grind, .inr (Nat.le_add_left _ _)⟩, by grind⟩

theorem ofScaled_eq {negative : Bool} {s : Scaled} (h : s.exponent ≤ 971) :
    ofScaled negative s =
      ofMagnitude negative ((s.exponent + 1074).toNat * 2 ^ 52 + s.significand) := by
  rw [ofScaled, if_neg (by simpa [binary64] using h)]
  rfl

/-- A finite double is made of its sign and its magnitude. -/
theorem ofScaled_scaled {x : Double} (h : x.isFinite = true) :
    ofScaled x.isNegative x.scaled = x := by
  have hFields : (x.scaled.exponent + 1074).toNat * 2 ^ 52 + x.scaled.significand =
      x.exponentField * 2 ^ 52 + x.fraction := by
    rw [scaled_eq]
    split
    case isTrue hField => simp [hField]
    case isFalse hField => grind
  rw [ofScaled_eq (isDouble_scaled h).2, hFields, ofMagnitude_fields]

section

variable {s : Scaled} (hDouble : s.IsDouble) (hFinite : s.exponent ≤ 971) (negative : Bool)

include hDouble hFinite

theorem magnitude_lt : (s.exponent + 1074).toNat * 2 ^ 52 + s.significand < 2047 * 2 ^ 52 := by
  have hLess := hDouble.significand_lt
  omega

theorem isNegative_ofScaled : (ofScaled negative s).isNegative = negative := by
  have hLess := magnitude_lt hDouble hFinite
  rw [ofScaled_eq hFinite, isNegative_ofMagnitude (by omega)]

theorem isFinite_ofScaled : (ofScaled negative s).isFinite = true := by
  have hLess := magnitude_lt hDouble hFinite
  rw [isFinite_iff, ofScaled_eq hFinite, exponentField_ofMagnitude (by omega)]
  omega

/-- A number of double precision is the magnitude of the doubles that are made of it. -/
theorem scaled_ofScaled : (ofScaled negative s).scaled = s := by
  have hLess : (s.exponent + 1074).toNat * 2 ^ 52 + s.significand < 2 ^ 63 :=
    (magnitude_lt hDouble hFinite).trans (by norm_num)
  obtain ⟨m, q⟩ := s
  obtain ⟨hBits, hLeast, hNormal⟩ := hDouble
  rw [ofScaled_eq hFinite, scaled_eq, exponentField_ofMagnitude hLess,
    fraction_ofMagnitude hLess]
  dsimp only at *
  split
  case isTrue hField => grind
  case isFalse hField => grind

end

end SqlMetrics.Number.Double
