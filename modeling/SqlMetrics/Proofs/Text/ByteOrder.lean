import SqlMetrics.Text.Utf8

/-!
# The order of bytes

Text is compared by code points throughout; what is asked for is the order of the UTF-8 bytes.  The
two are one order.

- **Characters**: where two characters differ, their bytes differ in the same direction, whatever
  comes behind them.
- **Text**: `encode_lt_encode_iff`.
-/

namespace SqlMetrics.Text

/-! ## Characters -/

/-- Of two numbers that differ above the place `k`, the smaller one is smaller above the next place
to base 64, or equal there and smaller in the digit between the two places. -/
theorem Utf8.lt_digit {n m k : Nat} (h : n / k < m / k) :
    n / (k * 64) < m / (k * 64) ∨ n / (k * 64) = m / (k * 64) ∧ n / k % 64 < m / k % 64 := by
  rw [← Nat.div_div_eq_div_mul, ← Nat.div_div_eq_div_mul]
  omega

/-- The bytes of the smaller of two characters come first, whatever follows. -/
theorem Utf8.encodeChar_lt {c d : Char} (h : c < d) (x y : Bytes) :
    String.utf8EncodeChar c ++ x < String.utf8EncodeChar d ++ y := by
  have hLess : c.val.toNat < d.val.toNat := h
  have hBound : d.val.toNat < 0x110000 := by
    have hValid := d.valid
    simp only [UInt32.isValidChar, Nat.isValidChar] at hValid
    omega
  simp only [String.utf8EncodeChar]
  generalize c.val.toNat = n at *
  generalize d.val.toNat = m at *
  -- The bytes after the first hold the digits to base 64.
  have hLow := Utf8.lt_digit (n := n) (m := m) (k := 1)
  have hMiddle := Utf8.lt_digit (n := n) (m := m) (k := 64)
  have hHigh := Utf8.lt_digit (n := n) (m := m) (k := 4096)
  simp only [Nat.div_one, Nat.one_mul, Nat.reduceMul] at hLow hMiddle hHigh
  -- One case for each pair of lengths; a longer form starts with a greater byte.
  repeat' split
  all_goals
    simp only [List.cons_append, List.nil_append, List.cons_lt_cons_iff, UInt8.lt_iff_toNat_lt,
      ← UInt8.toNat_inj, UInt8.toNat_ofNat']
    simp (disch := omega) only [Nat.mod_eq_of_lt]
    omega

/-! ## Text -/

/-- The bytes of the smaller of two lists of characters come first. -/
theorem Utf8.encodeChars_lt {cs ds : List Char} (h : cs < ds) :
    Utf8.encodeChars cs < Utf8.encodeChars ds := by
  induction h with
  | @nil d ds =>
    obtain ⟨b, bytes, hBytes⟩ :=
      List.exists_cons_of_ne_nil (String.utf8EncodeChar_ne_nil (c := d))
    simp only [Utf8.encodeChars, List.flatMap_cons, List.flatMap_nil, hBytes]
    exact List.nil_lt_cons _ _
  | rel hChar => exact Utf8.encodeChar_lt hChar _ _
  | cons _ ih => exact List.append_left_lt ih

/-- **The order of texts is the order of their bytes.** -/
theorem encode_lt_encode_iff {s t : String} : encode s < encode t ↔ s < t := by
  constructor
  · intro hBytes
    refine Decidable.byContradiction fun hNot => ?_
    by_cases hOther : t < s
    · exact List.lt_asymm hBytes (Utf8.encodeChars_lt (String.lt_iff.mp hOther))
    · have hSame : s = t := String.le_antisymm (String.not_lt.1 hOther) (String.not_lt.1 hNot)
      exact List.lt_irrefl _ (hSame ▸ hBytes)
  · intro hText
    exact Utf8.encodeChars_lt (String.lt_iff.mp hText)

end SqlMetrics.Text
