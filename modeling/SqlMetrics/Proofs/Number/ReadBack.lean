import SqlMetrics.Proofs.Number.Numeral
import SqlMetrics.Proofs.Number.Shortest
import SqlMetrics.Proofs.Number.Text

/-!
# Doubles as JSON numbers

A finite double is written as a JSON number with a point or an exponent, and the number reads back
as the double.

- **Rounding**: `ofDecimal_of_readsBack` says which decimals give a double.
- **Grammar**: `SpellsReal` are the JSON numbers with a point or an exponent, and every way of
  writing digits at a power of ten is one of them (`exists_spellsReal_write`).
- **Reading back**: `spellsReal_json` is the main result, and `readDouble?_json` says what the
  reader of numerals makes of it.
-/

namespace SqlMetrics.Number

/-! ## Rounding -/

/-- A power of ten is further from one than the power of eight. -/
theorem eight_zpow_le {e : ℤ} (h : 0 ≤ e) : (2 : ℚ) ^ (3 * e) ≤ 10 ^ e := by
  rw [zpow_mul]
  exact zpow_le_zpow_left₀ h (by norm_num) (by norm_num)

theorem ten_zpow_le {e : ℤ} (h : e ≤ 0) : (10 : ℚ) ^ e ≤ 2 ^ (3 * e) := by
  have hInverse := eight_zpow_le (e := -e) (by omega)
  rw [show 3 * -e = -(3 * e) by omega, zpow_neg, zpow_neg] at hInverse
  exact (inv_le_inv₀ (by positivity) (by positivity)).mp hInverse

/-- What the length of the digits and the exponent say of the size of a decimal. -/
theorem Decimal.zpow_le_value {d : Decimal} (hDigits : 0 < d.digits) (hExponent : 0 ≤ d.exponent) :
    (2 : ℚ) ^ ((d.digits.log2 : ℤ) + 3 * d.exponent) ≤ d.value := by
  rw [zpow_add₀ two_ne_zero]
  exact mul_le_mul (zpow_log2_le hDigits) (eight_zpow_le hExponent) (by positivity) (by positivity)

theorem Decimal.value_le_zpow {d : Decimal} (hExponent : d.exponent ≤ 0) :
    d.value ≤ (2 : ℚ) ^ ((d.digits.log2 : ℤ) + 1 + 3 * d.exponent) := by
  rw [zpow_add₀ two_ne_zero]
  exact mul_le_mul (lt_zpow_log2 _).le (ten_zpow_le hExponent) (by positivity) (by positivity)

theorem digits_pos_of_readsBack {s : Scaled} {d : Decimal} (hPos : 0 < s.significand)
    (h : ReadsBack s d.value) : 0 < d.digits := by
  have hValue : 0 < s.value := mul_pos (by exact_mod_cast hPos) (by positivity)
  have hLower : 0 < d.value := by linarith [Scaled.value_half_le hPos, h.lower_le]
  rcases Nat.eq_zero_or_pos d.digits with hZero | hSome
  · rw [Decimal.value, hZero, Nat.cast_zero, zero_mul] at hLower
    exact absurd hLower (lt_irrefl 0)
  · exact hSome

/-- **A decimal that reads back as the magnitude of a double gives the double**, with its sign. -/
theorem ofDecimal_of_readsBack {x : Double} (hFinite : x.isFinite = true)
    (hPos : 0 < x.significand) {d : Decimal} (h : ReadsBack x.scaled d.value) :
    Double.ofDecimal x.isNegative d.digits d.exponent = x := by
  obtain ⟨hDouble, hExponent⟩ := Double.isDouble_scaled hFinite
  obtain ⟨hLeast, hGreatest⟩ := Scaled.value_bounds hDouble hExponent hPos
  have hLow : (2 : ℚ) ^ (-1075 : ℤ) ≤ d.value := by
    calc (2 : ℚ) ^ (-1075 : ℤ) = 2 ^ (-1074 : ℤ) / 2 := zpow_sub_one₀ two_ne_zero (-1074)
      _ ≤ x.scaled.value / 2 := by gcongr
      _ ≤ x.scaled.lower := Scaled.value_half_le hPos
      _ ≤ d.value := h.lower_le
  have hHigh : d.value ≤ 2 ^ (1024 : ℤ) := h.le_upper.trans hGreatest
  have hDigits := digits_pos_of_readsBack hPos h
  -- Very large and very small decimals are not rounded at all, but these bounds exclude them.
  have hNotInfinite : ¬(0 ≤ d.exponent ∧ 1025 ≤ (d.digits.log2 : ℤ) + 3 * d.exponent) := by
    rintro ⟨hSign, hLarge⟩
    have hBits := (Decimal.zpow_le_value hDigits hSign).trans hHigh
    rw [zpow_le_zpow_iff_right₀ (by norm_num)] at hBits
    omega
  have hNotZero : ¬(d.exponent < 0 ∧ (d.digits.log2 : ℤ) + 1 + 3 * d.exponent ≤ -1076) := by
    rintro ⟨hSign, hSmall⟩
    have hBits := hLow.trans (Decimal.value_le_zpow hSign.le)
    rw [zpow_le_zpow_iff_right₀ (by norm_num)] at hBits
    omega
  have hQuotient : ((scaleTen d.digits 1 (-d.exponent)).1 /
      (scaleTen d.digits 1 (-d.exponent)).2 : ℚ) = d.value := by
    rw [← quotient, quotient_scaleTen, Nat.cast_one, div_one, zpow_neg, div_inv_eq_mul]
    rfl
  have hNearest : binary64.nearest (scaleTen d.digits 1 (-d.exponent)).1
      (scaleTen d.digits 1 (-d.exponent)).2 = x.scaled := by
    apply nearest_of_readsBack hDouble
    · exact Nat.mul_pos hDigits (tenTo_pos _)
    · exact scaleTen_snd_pos _ _ Nat.one_pos
    · rwa [hQuotient]
  simp only [Double.ofDecimal, beq_iff_eq, hDigits.ne', if_false, Bool.and_eq_true,
    decide_eq_true_eq, if_neg hNotInfinite, if_neg hNotZero]
  rw [Double.ofRatio, hNearest, Double.ofScaled_scaled hFinite]

/-! ## Grammar -/

/-- The digits before the point of a JSON number: no zero stands before other digits. -/
structure IsWhole (cs : List Char) : Prop where
  isDigits : IsDigits cs
  leading : cs = ['0'] ∨ cs.head? ≠ some '0'

/-- The JSON numbers with a point or an exponent, without their sign, and the decimals that they
stand for. -/
inductive SpellsReal : List Char → Decimal → Prop
  | pointed {whole places exponent : List Char} {e : ℤ} : IsWhole whole → IsDigits places →
      IsExponent exponent e → SpellsReal (whole ++ '.' :: (places ++ exponent))
        ⟨placeValue (whole ++ places), e - places.length⟩
  | scaled {whole cs : List Char} {mark : Char} {e : ℤ} : IsWhole whole →
      mark = 'e' ∨ mark = 'E' → SpellsInt cs e → SpellsReal (whole ++ mark :: cs)
        ⟨placeValue whole, e⟩

/-- With a sign before it, a JSON number spells the double nearest to its decimal. -/
theorem SpellsReal.spellsDouble {sign cs : List Char} {negative : Bool} {d : Decimal}
    (hSign : IsSign sign negative) (h : SpellsReal cs d) :
    SpellsDouble (sign ++ cs) (Double.ofDecimal negative d.digits d.exponent) := by
  cases h with
  | @pointed whole places exponent e hWhole hPlaces hExponent =>
    have hDigits : IsDigits (whole ++ places) :=
      ⟨by simp [hWhole.isDigits.1], fun c hMem => (List.mem_append.mp hMem).elim
        (hWhole.isDigits.2 c) (hPlaces.2 c)⟩
    have hSpells := SpellsDouble.decimal hSign (.pointed hDigits) hExponent
    rwa [List.append_assoc] at hSpells
  | scaled hWhole hMark hSpells =>
    simpa using SpellsDouble.decimal hSign (.whole hWhole.isDigits) (.some hMark hSpells)

/-! ### Values of digits -/

theorem placeValue_append (xs ys : List Char) :
    placeValue (xs ++ ys) = placeValue xs * 10 ^ ys.length + placeValue ys := by
  simp only [placeValue, List.map_append, List.reverse_append, Nat.ofDigits_append,
    List.length_reverse, List.length_map]
  ring

theorem placeValue_zeros (n : Nat) : placeValue (zeros n) = 0 := by
  induction n with
  | zero => rfl
  | succ n ih =>
    have hSucc : zeros (n + 1) = ['0'] ++ zeros n := rfl
    have hZero : placeValue ['0'] = 0 := rfl
    rw [hSucc, placeValue_append, ih, hZero, zero_mul]

theorem placeValue_natDigits (n : Nat) : placeValue (natDigits n) = n := by
  rw [← digitsValue_eq_placeValue, digitsValue_natDigits]

theorem isDigits_natDigits (n : Nat) : IsDigits (natDigits n) :=
  ⟨Nat.toDigits_ne_nil, fun _ => isDigit_of_mem_natDigits⟩

/-- The digits of a positive number do not begin with a zero. -/
theorem head_natDigits {n : Nat} (h : 0 < n) : (natDigits n).head? ≠ some '0' := by
  induction n using Nat.strongRecOn with
  | ind n ih =>
    rcases Nat.lt_or_ge n 10 with hOne | hMore
    · rw [natDigits, Nat.toDigits_of_lt_base hOne]
      have hAll : ∀ d < 10, 0 < d → [d.digitChar].head? ≠ some '0' := by decide
      exact hAll n hOne h
    · rw [natDigits, Nat.toDigits_of_base_le (by decide) hMore,
        List.head?_append_of_ne_nil _ Nat.toDigits_ne_nil]
      exact ih (n / 10) (by omega) (by omega)

/-- The first digits of a positive number. -/
theorem isWhole_of_prefix {digits : List Char} {n : Nat} (hPos : 0 < n)
    (hDigits : digits <+: natDigits n) (hSome : digits ≠ []) : IsWhole digits := by
  refine ⟨⟨hSome, fun c hMem => isDigit_of_mem_natDigits (hDigits.subset hMem)⟩, .inr ?_⟩
  obtain ⟨rest, hSplit⟩ := hDigits
  have hHead := head_natDigits hPos
  rwa [← hSplit, List.head?_append_of_ne_nil _ hSome] at hHead

theorem isWhole_zero : IsWhole ['0'] :=
  ⟨⟨List.cons_ne_nil _ _, by simp⟩, .inl rfl⟩

theorem isWhole_natDigits (n : Nat) : IsWhole (natDigits n) := by
  rcases Nat.eq_zero_or_pos n with rfl | hPos
  · exact isWhole_zero
  · exact isWhole_of_prefix hPos (List.prefix_refl _) Nat.toDigits_ne_nil

/-! ### Writing -/

theorem value_mk_mul_tenTo (n k : Nat) (e : ℤ) :
    (Decimal.mk (n * 10 ^ k) (e - k)).value = (Decimal.mk n e).value := by
  simp only [Decimal.value]
  rw [zpow_sub₀ (by norm_num), zpow_natCast]
  push_cast
  field_simp

/-- A whole number keeps a zero behind the point. -/
theorem exists_spellsReal_whole {n : Nat} (hPos : 0 < n) (k : Nat) :
    ∃ d, SpellsReal (natDigits n ++ zeros k ++ ['.', '0']) d ∧
      d.value = (Decimal.mk n k).value := by
  rw [← natDigits_mul_tenTo hPos]
  refine ⟨_, SpellsReal.pointed (isWhole_natDigits _) isWhole_zero.isDigits .none, ?_⟩
  have hValue : placeValue (natDigits (n * tenTo k) ++ ['0']) = n * 10 ^ (k + 1) := by
    rw [placeValue_append, placeValue_natDigits]
    simp [placeValue, digitValue, pow_succ, mul_assoc]
  rw [hValue, ← value_mk_mul_tenTo n (k + 1) k]
  simp

/-- Digits with a point among them, or with a point and zeros before them. -/
theorem spellsReal_positional {n : Nat} (hPos : 0 < n) {e : ℤ} (h : e < 0) :
    SpellsReal (positional (natDigits n) e) ⟨n, e⟩ := by
  obtain ⟨places, hExponent⟩ : ∃ places : Nat, e = -places := ⟨(-e).toNat, by omega⟩
  have hSome : 0 < places := by omega
  subst hExponent
  rw [positional, if_neg (by omega)]
  simp only [neg_neg, Int.toNat_natCast]
  split
  case isTrue hInside =>
    have hTake : (natDigits n).take ((natDigits n).length - places) ≠ [] := by
      apply List.ne_nil_of_length_pos
      rw [List.length_take]
      omega
    have hDrop : ((natDigits n).drop ((natDigits n).length - places)).length = places := by
      rw [List.length_drop]
      omega
    have hWhole := isWhole_of_prefix hPos (List.take_prefix _ _) hTake
    have hPlaces : IsDigits ((natDigits n).drop ((natDigits n).length - places)) :=
      ⟨List.ne_nil_of_length_pos (by omega),
        fun c hMem => isDigit_of_mem_natDigits (List.mem_of_mem_drop hMem)⟩
    have hSpells := SpellsReal.pointed hWhole hPlaces .none
    simpa [hDrop, placeValue_natDigits] using hSpells
  case isFalse hBefore =>
    have hPlaces : IsDigits (zeros (places - (natDigits n).length) ++ natDigits n) :=
      ⟨by simp [(isDigits_natDigits n).1], fun c hMem => (List.mem_append.mp hMem).elim
        isDigit_of_mem_zeros isDigit_of_mem_natDigits⟩
    have hLength : (zeros (places - (natDigits n).length) ++ natDigits n).length = places := by
      simp [zeros]
      omega
    have hValue : placeValue (['0'] ++ (zeros (places - (natDigits n).length) ++ natDigits n)) =
        n := by
      rw [placeValue_append, placeValue_append, placeValue_zeros, placeValue_natDigits]
      simp [placeValue, digitValue]
    have hSpells := SpellsReal.pointed isWhole_zero hPlaces .none
    rwa [hLength, hValue, List.append_nil, zero_sub] at hSpells

/-- The exponent behind the mark, with its sign. -/
theorem spellsInt_exponent (e : ℤ) :
    SpellsInt ((if e < 0 then '-' else '+') :: natDigits e.natAbs) e := by
  have hSign : IsSign [if e < 0 then '-' else '+'] (decide (e < 0)) := by
    by_cases hNegative : e < 0
    · rw [if_pos hNegative, decide_eq_true hNegative]
      exact .minus
    · rw [if_neg hNegative, decide_eq_false hNegative]
      exact .plus
  have hSpells := SpellsInt.intro hSign (isDigits_natDigits e.natAbs)
  rwa [placeValue_natDigits, signed_natAbs] at hSpells

/-- The first digit before the point and the others behind it, with an exponent. -/
theorem spellsReal_scientific {n : Nat} (hPos : 0 < n) (e : ℤ) :
    SpellsReal (scientific (natDigits n) e) ⟨n, e⟩ := by
  have hFirst {d : Char} {rest : List Char} (hDigits : natDigits n = d :: rest) : IsWhole [d] :=
    isWhole_of_prefix hPos ⟨rest, hDigits.symm⟩ (List.cons_ne_nil _ _)
  have hDigit : ∀ c ∈ natDigits n, c.isDigit = true := fun _ => isDigit_of_mem_natDigits
  have hValue := placeValue_natDigits n
  rcases hDigits : natDigits n with _ | ⟨d, _ | ⟨r, rest⟩⟩
  · exact absurd hDigits Nat.toDigits_ne_nil
  · -- There is one digit, and no point.
    have hSpells := SpellsReal.scaled (hFirst hDigits) (.inl rfl) (spellsInt_exponent e)
    rw [← hDigits, hValue, hDigits] at hSpells
    simpa [scientific] using hSpells
  · have hRest : IsDigits (r :: rest) := ⟨List.cons_ne_nil _ _, fun c hMem =>
      hDigit c (hDigits ▸ List.mem_cons_of_mem d hMem)⟩
    have hSpells := SpellsReal.pointed (hFirst hDigits) hRest
      (.some (.inl rfl) (spellsInt_exponent (e + (d :: r :: rest).length - 1)))
    have hPlaces : e + ((d :: r :: rest).length : ℤ) - 1 - (r :: rest).length = e := by
      push_cast [List.length_cons]
      ring
    have hMany : placeValue ([d] ++ r :: rest) = n := by
      rw [List.singleton_append, ← hDigits, hValue]
    rw [hPlaces, hMany] at hSpells
    simpa [scientific] using hSpells

/-- **Digits at a power of ten are written as a JSON number** with a point or an exponent, in every
style. -/
theorem exists_spellsReal_write (style : ExponentStyle) {n : Nat} (hPos : 0 < n) (e : ℤ) :
    ∃ d, SpellsReal (style.write (natDigits n) e) d ∧ d.value = (Decimal.mk n e).value := by
  unfold ExponentStyle.write
  dsimp only
  split
  case isTrue =>
    split
    case isTrue hWhole =>
      obtain ⟨k, rfl⟩ := Int.eq_ofNat_of_zero_le hWhole
      rw [positional, if_pos hWhole, Int.toNat_natCast]
      exact exists_spellsReal_whole hPos k
    case isFalse hPlaces => exact ⟨_, spellsReal_positional hPos (by omega), rfl⟩
  case isFalse => exact ⟨_, spellsReal_scientific hPos e, rfl⟩

/-! ## Reading back -/

theorem isSign_signChars (x : Double) : IsSign x.signChars x.isNegative := by
  unfold Double.signChars
  cases x.isNegative
  · exact .none
  · exact .minus

/-- A double without a magnitude is a zero. -/
theorem zero_isNegative {x : Double} (h : x.significand = 0) :
    Double.zero x.isNegative = x := by
  have hFields : x.exponentField = 0 ∧ x.fraction = 0 := by
    unfold Double.significand at h
    split at h
    case isTrue hField => exact ⟨by simpa using hField, h⟩
    case isFalse => exact absurd h (by simp [twoTo])
  have hSame := x.ofMagnitude_fields
  rwa [hFields.1, hFields.2] at hSame

/-- **A finite double is written as a JSON number with a point or an exponent**, and the decimal
that the number stands for gives the double. -/
theorem spellsReal_json {x : Double} (h : x.isFinite = true) :
    ∃ magnitude d, x.json.toList = x.signChars ++ magnitude ∧ SpellsReal magnitude d ∧
      Double.ofDecimal x.isNegative d.digits d.exponent = x := by
  rw [Double.json, if_neg (by simp [h]), String.toList_ofList]
  rcases Nat.eq_zero_or_pos x.significand with hZero | hPos
  · rw [if_pos (by simp [hZero])]
    refine ⟨_, _, rfl, .pointed isWhole_zero isWhole_zero.isDigits .none, ?_⟩
    exact zero_isNegative hZero
  · rw [if_neg (by simp [hPos.ne'])]
    have hReads := readsBack_shortest h hPos jsonStyle.tie
    obtain ⟨d, hSpells, hValue⟩ := exists_spellsReal_write jsonStyle
      (digits_pos_of_readsBack hPos hReads) (x.shortest jsonStyle.tie).exponent
    exact ⟨_, d, rfl, hSpells, ofDecimal_of_readsBack h hPos (hValue ▸ hReads)⟩

/-- **The JSON text of a finite double reads back as the double.** -/
theorem readDouble?_json {x : Double} (h : x.isFinite = true) :
    readDouble? x.json.toList = some x := by
  obtain ⟨magnitude, d, hText, hSpells, hSame⟩ := spellsReal_json h
  rw [readDouble?_eq_some_iff, hText]
  have hSpelled := hSpells.spellsDouble (isSign_signChars x)
  rwa [hSame] at hSpelled

end SqlMetrics.Number
