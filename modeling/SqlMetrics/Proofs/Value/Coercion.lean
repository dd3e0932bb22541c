import SqlMetrics.Value
import SqlMetrics.Proofs.Number.Numeral
import SqlMetrics.Proofs.Number.Text
import SqlMetrics.Proofs.Text.Utf8

/-!
# Coercion of character data

Character data becomes an integer, a double or text, by what its text spells.

- **Texts**: one equivalence for each kind of value that `Value.ofText` gives.
- **Texts that spell nothing**: a text with a character outside visible ASCII stays text.
- **Character data**: `character_data_coerced_as_spelled`.
-/

namespace SqlMetrics

open Number (Double IsDigits SpellsInt SpellsDouble isDigits_iff)

namespace Value

/-! ## Texts -/

/-- A text spells an integer of 64 bits. -/
def SpellsInt64 (s : String) : Prop :=
  ∃ n : Int, SpellsInt s.toList n ∧ -2 ^ 63 ≤ n ∧ n ≤ 2 ^ 63 - 1

theorem readInt?_eq_none_iff {s : String} :
    Number.readInt? s.toList = none ↔ ¬ SpellsInt64 s := by
  rw [Option.eq_none_iff_forall_ne_some, SpellsInt64, not_exists]
  simp only [ne_eq, Number.readInt?_eq_some_iff, Number.fitsInt64_iff]

theorem toInt_ofInt {n : Int} (hLow : -2 ^ 63 ≤ n) (hHigh : n ≤ 2 ^ 63 - 1) :
    (Int64.ofInt n).toInt = n :=
  Int64.toInt_ofInt_of_le hLow (by omega)

/-- A text that spells an integer of 64 bits becomes this integer, and no other text becomes one. -/
theorem ofText_eq_int_iff {s : String} {n : Int} :
    (∃ m : Int64, m.toInt = n ∧ ofText s = .int m) ↔
      SpellsInt s.toList n ∧ -2 ^ 63 ≤ n ∧ n ≤ 2 ^ 63 - 1 := by
  rw [← Number.fitsInt64_iff, ← Number.readInt?_eq_some_iff, ofText]
  constructor
  · rintro ⟨m, rfl, hInt⟩
    split at hInt
    case h_1 k hRead =>
      cases hInt
      obtain ⟨-, hFits⟩ := Number.readInt?_eq_some_iff.mp hRead
      obtain ⟨hLow, hHigh⟩ := Number.fitsInt64_iff.mp hFits
      rw [toInt_ofInt hLow hHigh, hRead]
    case h_2 => split at hInt <;> cases hInt
  · intro hRead
    obtain ⟨-, hFits⟩ := Number.readInt?_eq_some_iff.mp hRead
    obtain ⟨hLow, hHigh⟩ := Number.fitsInt64_iff.mp hFits
    simp only [hRead]
    exact ⟨Int64.ofInt n, toInt_ofInt hLow hHigh, rfl⟩

theorem ofText_eq_float_iff {s : String} {x : Double} :
    ofText s = .float x ↔ ¬ SpellsInt64 s ∧ SpellsDouble s.toList x := by
  rw [← readInt?_eq_none_iff, ← Number.readDouble?_eq_some_iff, ofText]
  cases Number.readInt? s.toList with
  | some n => simp
  | none =>
    cases Number.readDouble? s.toList with
    | some y => simp
    | none => simp

theorem ofText_eq_text_iff {s t : String} :
    ofText s = .text t ↔ t = s ∧ ¬ SpellsInt64 s ∧ ∀ x, ¬ SpellsDouble s.toList x := by
  simp only [← readInt?_eq_none_iff, ← Number.readDouble?_eq_some_iff, ofText]
  cases Number.readInt? s.toList with
  | some n => simp
  | none =>
    cases Number.readDouble? s.toList with
    | some y => simp
    | none => simp [eq_comm]

/-! ## Texts that spell nothing -/

/-- A text with a character that no number has stays text. -/
theorem ofText_of_not_isGraphic {s : String} {c : Char} (hMem : c ∈ s.toList)
    (hOther : ¬ Number.IsGraphic c) : ofText s = .text s := by
  refine ofText_eq_text_iff.mpr ⟨rfl, ?_, ?_⟩
  · rintro ⟨n, hSpells, -⟩
    exact hOther (hSpells.isGraphic c hMem)
  · intro x hSpells
    exact hOther (hSpells.isGraphic c hMem)

theorem not_isGraphic_of_isBlank {c : Char} (h : Text.isBlank c = true) :
    ¬ Number.IsGraphic c := by
  simp [Text.isBlank] at h
  simp [Number.IsGraphic]
  omega

theorem not_isGraphic_replacement : ¬ Number.IsGraphic Text.Utf8.replacement := by
  simp [Number.IsGraphic, Text.Utf8.replacement]

end Value

/-! ## Character data -/

/-- **Character data becomes what its text spells.**  With `s` the text that the bytes spell,
malformed parts replaced:
1. it becomes an integer exactly where `s` is an optional sign and digits whose number fits into 64
   bits, and then this number;
2. otherwise it becomes a double exactly where `s` spells one;
3. otherwise it becomes `s` itself;
4. an integer beyond 64 bits becomes the double that its digits spell;
5. bytes that are those of no text become text, and those of a text are read as this text;
6. a text with white space, wherever it stands, stays as it is;
7. the decimal text of a 64-bit integer becomes this integer again. -/
theorem character_data_coerced_as_spelled (data : Bytes) :
    let s := Text.decodeLossy data
    let v := RawValue.coerce (.bytes data)
    (∀ n : Int, (∃ m : Int64, m.toInt = n ∧ v = .int m) ↔
      SpellsInt s.toList n ∧ -2 ^ 63 ≤ n ∧ n ≤ 2 ^ 63 - 1) ∧
    (∀ x, v = .float x ↔
      (¬ ∃ n, SpellsInt s.toList n ∧ -2 ^ 63 ≤ n ∧ n ≤ 2 ^ 63 - 1) ∧
        SpellsDouble s.toList x) ∧
    (∀ t, v = .text t ↔ t = s ∧
      (¬ ∃ n, SpellsInt s.toList n ∧ -2 ^ 63 ≤ n ∧ n ≤ 2 ^ 63 - 1) ∧
        ∀ x, ¬ SpellsDouble s.toList x) ∧
    (∀ n, SpellsInt s.toList n → n < -2 ^ 63 ∨ 2 ^ 63 - 1 < n →
      v = .float (Double.ofDecimal (n < 0) n.natAbs 0)) ∧
    ((∀ t, Text.encode t ≠ data) → v = .text s) ∧
    (∀ t, data = Text.encode t → s = t) ∧
    ((∃ c ∈ s.toList, Text.isBlank c = true) → v = .text s) ∧
    ∀ n : Int64, data = Text.encode (Number.intText n.toInt) → v = .int n := by
  intro s v
  refine ⟨fun n => Value.ofText_eq_int_iff, fun x => Value.ofText_eq_float_iff,
    fun t => Value.ofText_eq_text_iff, ?_, ?_, ?_, ?_, ?_⟩
  · intro n hSpells hOutside
    apply Value.ofText_eq_float_iff.mpr
    refine ⟨?_, hSpells.spellsDouble (by omega)⟩
    rintro ⟨k, hOther, hRange⟩
    obtain rfl := hSpells.unique hOther
    omega
  · intro hMalformed
    exact Value.ofText_of_not_isGraphic (Text.replacement_mem_of_malformed hMalformed)
      Value.not_isGraphic_replacement
  · rintro t rfl
    exact Text.decodeLossy_encode t
  · rintro ⟨c, hMem, hBlank⟩
    exact Value.ofText_of_not_isGraphic hMem (Value.not_isGraphic_of_isBlank hBlank)
  · rintro n rfl
    have hText : s = Number.intText n.toInt := Text.decodeLossy_encode _
    have hRead := Number.readInt?_intText (Number.fitsInt64_toInt n)
    change Value.ofText s = .int n
    simp only [hText, Value.ofText, hRead, Int64.ofInt_toInt]

/-- The first integer beyond 64 bits, with a sign and a leading zero, becomes the double nearest to
it. -/
theorem character_data_coerced_as_spelled_wide :
    RawValue.coerce (.bytes (Text.encode "+09223372036854775808")) =
      .float ⟨0x43e0000000000000⟩ := by
  have hText := Text.decodeLossy_encode "+09223372036854775808"
  have hChars : "+09223372036854775808".toList = ['+'] ++ "09223372036854775808".toList := by
    decide
  obtain ⟨-, -, -, hWide, -⟩ :=
    character_data_coerced_as_spelled (Text.encode "+09223372036854775808")
  have hDigits : IsDigits "09223372036854775808".toList := isDigits_iff.mp (by decide)
  have hSpells : SpellsInt (['+'] ++ "09223372036854775808".toList) 9223372036854775808 :=
    .intro .plus hDigits
  have hDouble : Double.ofDecimal (decide ((9223372036854775808 : Int) < 0))
      (9223372036854775808 : Int).natAbs 0 = ⟨0x43e0000000000000⟩ := by decide +kernel
  rw [← hDouble]
  refine hWide 9223372036854775808 ?_ (by omega)
  rw [hText, hChars]
  exact hSpells

end SqlMetrics
