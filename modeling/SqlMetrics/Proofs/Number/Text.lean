import SqlMetrics.Number.Numeral
import SqlMetrics.Number.Text
import SqlMetrics.Text.Blank

/-!
# The texts of numbers

- **Characters**: an integer is written with digits and a minus sign, and a double with fixed places
  with these and a point.
- **Zeros**: a power of ten puts zeros behind the digits.
- **Reading back**: the text of a 64-bit integer reads back as the integer.
-/

namespace SqlMetrics.Number

/-! ## Characters -/

/-- A digit, a minus sign or a point. -/
def IsNumeralChar (c : Char) : Prop :=
  c.isDigit = true ∨ c = '-' ∨ c = '.'

theorem isDigit_of_mem_natDigits {n : Nat} {c : Char} (h : c ∈ natDigits n) : c.isDigit = true :=
  Nat.isDigit_of_mem_toDigits (by decide) (by decide) h

theorem isNumeralChar_of_mem_intText {n : Int} {c : Char} (h : c ∈ (intText n).toList) :
    IsNumeralChar c := by
  rw [intText, String.toList_ofList, List.mem_append] at h
  rcases h with hSign | hDigit
  · split at hSign
    · exact .inr (.inl (List.mem_singleton.mp hSign))
    · cases hSign
  · exact .inl (isDigit_of_mem_natDigits hDigit)

theorem isDigit_of_mem_zeros {n : Nat} {c : Char} (h : c ∈ zeros n) : c.isDigit = true := by
  rw [List.eq_of_mem_replicate h]
  decide

/-- Digits that are written positionally are joined by zeros and a point at most. -/
theorem isNumeralChar_of_mem_positional {digits : List Char} {exponent : Int} {c : Char}
    (hDigits : ∀ d ∈ digits, d.isDigit = true) (h : c ∈ positional digits exponent) :
    IsNumeralChar c := by
  have hDigit : c ∈ digits → IsNumeralChar c := fun hMem => .inl (hDigits c hMem)
  have hZero {n : Nat} : c ∈ zeros n → IsNumeralChar c :=
    fun hMem => .inl (isDigit_of_mem_zeros hMem)
  rw [positional] at h
  -- Without a point there are zeros behind the digits.  With one it falls between them, or zeros
  -- stand before them.
  split at h
  case isTrue => exact (List.mem_append.mp h).elim hDigit hZero
  case isFalse =>
    dsimp only at h
    split at h
    case isTrue =>
      rcases List.mem_append.mp h with hWhole | hRest
      · exact hDigit (List.mem_of_mem_take hWhole)
      · rcases List.mem_cons.mp hRest with hPoint | hPlaces
        · exact .inr (.inr hPoint)
        · exact hDigit (List.mem_of_mem_drop hPlaces)
    case isFalse =>
      rcases List.mem_cons.mp h with rfl | hRest
      · exact .inl (by decide)
      · rcases List.mem_cons.mp hRest with hPoint | hPlaces
        · exact .inr (.inr hPoint)
        · exact (List.mem_append.mp hPlaces).elim hZero hDigit

/-- A double with fixed places is written with digits, a minus sign and a point. -/
theorem isNumeralChar_of_mem_fixed {x : Double} {places : Nat} {c : Char}
    (h : c ∈ (x.fixed places).toList) : IsNumeralChar c := by
  rw [Double.fixed, String.toList_ofList, List.mem_append] at h
  rcases h with hSign | hMagnitude
  · rw [Double.signChars] at hSign
    split at hSign
    · exact .inr (.inl (List.mem_singleton.mp hSign))
    · cases hSign
  · refine isNumeralChar_of_mem_positional (fun d hMem => ?_) hMagnitude
    exact (List.mem_append.mp hMem).elim isDigit_of_mem_zeros isDigit_of_mem_natDigits

theorem IsNumeralChar.ne {c : Char} (h : IsNumeralChar c) : c ≠ '\t' ∧ c ≠ '\n' := by
  constructor
  · rintro rfl
    exact absurd h (by simp [IsNumeralChar])
  · rintro rfl
    exact absurd h (by simp [IsNumeralChar])

/-! ## Zeros -/

theorem natDigits_mul_ten {n : Nat} (h : 0 < n) : natDigits (10 * n) = natDigits n ++ ['0'] :=
  (Nat.toDigits_append_toDigits (by decide) h (by decide : 0 < 10)).symm

theorem zeros_succ (n : Nat) : zeros (n + 1) = zeros n ++ ['0'] :=
  List.replicate_succ' ..

/-- A power of ten puts zeros behind the digits. -/
theorem natDigits_mul_tenTo {n : Nat} (h : 0 < n) (places : Nat) :
    natDigits (n * tenTo places) = natDigits n ++ zeros places := by
  induction places with
  | zero => simp [zeros, tenTo]
  | succ places ih =>
    have hStep : n * tenTo (places + 1) = 10 * (n * tenTo places) := by
      simp only [tenTo, Nat.pow_eq, Nat.pow_succ]
      rw [← Nat.mul_assoc, Nat.mul_comm]
    have hPos : 0 < n * tenTo places := Nat.mul_pos h (Nat.pow_pos (by decide))
    rw [hStep, natDigits_mul_ten hPos, ih, zeros_succ, List.append_assoc]

/-! ## Visible characters -/

theorem IsNumeralChar.not_blank {c : Char} (h : IsNumeralChar c) : Text.isBlank c = false := by
  rcases h with hDigit | rfl | rfl
  · -- The digits are the codes from 48 to 57, where no white space is.
    have hCode : 48 ≤ c.toNat ∧ c.toNat ≤ 57 := by
      simpa [Char.isDigit, UInt32.le_iff_toNat_le] using hDigit
    simp [Text.isBlank]
    omega
  · decide
  · decide

/-- What ends in a visible character is not blank. -/
theorem exists_not_blank_append {sign magnitude : List Char}
    (h : ∃ c ∈ magnitude, Text.isBlank c = false) :
    ∃ c ∈ (String.ofList (sign ++ magnitude)).toList, Text.isBlank c = false := by
  obtain ⟨c, hMem, hVisible⟩ := h
  exact ⟨c, by simp [hMem], hVisible⟩

theorem exists_not_blank_natDigits (n : Nat) : ∃ c ∈ natDigits n, Text.isBlank c = false := by
  obtain ⟨c, rest, hDigits⟩ := List.exists_cons_of_ne_nil (l := natDigits n) Nat.toDigits_ne_nil
  have hMem : c ∈ natDigits n := by simp [hDigits]
  exact ⟨c, hMem, IsNumeralChar.not_blank (.inl (isDigit_of_mem_natDigits hMem))⟩

theorem exists_not_blank_intText (n : Int) :
    ∃ c ∈ (intText n).toList, Text.isBlank c = false :=
  exists_not_blank_append (exists_not_blank_natDigits n.natAbs)

theorem exists_not_blank_positional {digits : List Char} (exponent : Int)
    (h : ∃ c ∈ digits, Text.isBlank c = false) :
    ∃ c ∈ positional digits exponent, Text.isBlank c = false := by
  unfold positional
  split
  case isTrue =>
    obtain ⟨c, hMem, hVisible⟩ := h
    exact ⟨c, List.mem_append_left _ hMem, hVisible⟩
  case isFalse =>
    -- There is a point among the digits.
    dsimp only
    split <;> exact ⟨'.', by simp, by decide⟩

/-- The text of a double is never blank. -/
theorem exists_not_blank_plain (x : Double) :
    ∃ c ∈ x.plain.toList, Text.isBlank c = false := by
  unfold Double.plain
  split
  case isTrue => exact ⟨'N', by decide, by decide⟩
  case isFalse =>
    apply exists_not_blank_append
    split
    case isTrue => exact ⟨'i', by decide, by decide⟩
    case isFalse =>
      split
      case isTrue => exact ⟨'0', by decide, by decide⟩
      case isFalse => exact exists_not_blank_positional _ (exists_not_blank_natDigits _)

/-! ## Reading back -/

theorem digitsValue_natDigits (n : Nat) : digitsValue (natDigits n) = n :=
  Nat.ofDigitChars_ten_toDigits

theorem splitSign_of_isDigit {cs : List Char} (h : ∀ c ∈ cs, c.isDigit = true) :
    splitSign cs = (false, cs) := by
  unfold splitSign
  split
  case h_1 rest => exact absurd (h '+' List.mem_cons_self) (by decide)
  case h_2 rest => exact absurd (h '-' List.mem_cons_self) (by decide)
  case h_3 => rfl

theorem signed_natAbs (n : Int) : signed (decide (n < 0)) n.natAbs = n := by
  rw [signed]
  by_cases hNegative : n < 0
  · rw [decide_eq_true hNegative, if_pos rfl]
    omega
  · rw [decide_eq_false hNegative, if_neg Bool.false_ne_true]
    omega

/-- **The text of a 64-bit integer reads back as the integer.** -/
theorem readInt?_intText {n : Int} (h : fitsInt64 n = true) :
    readInt? (intText n).toList = some n := by
  have hDigits : ∀ c ∈ natDigits n.natAbs, c.isDigit = true := fun c => isDigit_of_mem_natDigits
  -- The reader takes the sign off first, and what is left are the digits.
  have hSplit : splitSign (intText n).toList = (decide (n < 0), natDigits n.natAbs) := by
    rw [intText, String.toList_ofList]
    by_cases hNegative : n < 0
    · simp [hNegative, splitSign]
    · simp [hNegative, splitSign_of_isDigit hDigits]
  have hSome : (natDigits n.natAbs).isEmpty = false := by
    simp [natDigits, Nat.toDigits_ne_nil]
  have hAll : (natDigits n.natAbs).all Char.isDigit = true := List.all_eq_true.mpr hDigits
  simp [readInt?, hSplit, hSome, hAll, digitsValue_natDigits, signed_natAbs, h]

theorem fitsInt64_toInt (n : Int64) : fitsInt64 n.toInt = true := by
  have hLow := n.le_toInt
  have hHigh := n.toInt_lt
  simp [fitsInt64, twoTo]
  omega

end SqlMetrics.Number
