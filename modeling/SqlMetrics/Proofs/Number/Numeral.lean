import Mathlib
import SqlMetrics.Number.Numeral

/-!
# The grammar of numerals

Which texts spell an integer or a double, said without the readers, and that the readers accept
exactly these.

- **Digits and signs**: `placeValue` is the number that digits write, and `IsSign` the optional sign.
- **Integers**: `SpellsInt`, and `readInt?_eq_some_iff`.
- **Doubles**: `SpellsDouble` with its parts `IsSignificand` and `IsExponent`, and
  `readDouble?_eq_some_iff`.
- **Characters**: a number is written with visible ASCII characters only.
-/

namespace SqlMetrics.Number

/-! ## Digits and signs -/

/-- One or more ASCII digits. -/
def IsDigits (cs : List Char) : Prop :=
  cs ≠ [] ∧ ∀ c ∈ cs, c.isDigit = true

/-- The number that digits write to base ten, the last one being the units. -/
def placeValue (digits : List Char) : Nat :=
  Nat.ofDigits 10 (digits.map digitValue).reverse

theorem digitsValue_eq_placeValue (digits : List Char) :
    digitsValue digits = placeValue digits := by
  -- From the right, as the reader goes: one more digit moves the others up a place.
  induction digits using List.reverseRecOn with
  | nil => rfl
  | append_singleton rest c ih =>
    rw [digitsValue, List.foldl_append, ← digitsValue, ih]
    simp [placeValue, Nat.ofDigits_cons, Nat.add_comm]

theorem isDigits_iff {cs : List Char} :
    (cs.isEmpty || !cs.all Char.isDigit) = false ↔ IsDigits cs := by
  simp [IsDigits]

/-- The signs of numbers, and whether they make a number negative. -/
inductive IsSign : List Char → Bool → Prop
  | none : IsSign [] false
  | plus : IsSign ['+'] false
  | minus : IsSign ['-'] true

theorem splitSign_cases (cs : List Char) :
    ∃ sign, IsSign sign (splitSign cs).1 ∧ cs = sign ++ (splitSign cs).2 := by
  unfold splitSign
  split
  · exact ⟨['+'], .plus, rfl⟩
  · exact ⟨['-'], .minus, rfl⟩
  · exact ⟨[], .none, rfl⟩

theorem splitSign_append {sign rest : List Char} {negative : Bool} (hSign : IsSign sign negative)
    (hRest : ∀ c ∈ rest.head?, c ≠ '+' ∧ c ≠ '-') :
    splitSign (sign ++ rest) = (negative, rest) := by
  cases hSign with
  | plus => rfl
  | minus => rfl
  | none =>
    rw [List.nil_append]
    unfold splitSign
    split
    · exact absurd rfl (hRest '+' rfl).1
    · exact absurd rfl (hRest '-' rfl).2
    · rfl

theorem not_sign_of_isDigit {c : Char} (h : c.isDigit = true) : c ≠ '+' ∧ c ≠ '-' := by
  constructor
  · rintro rfl
    exact absurd h (by decide)
  · rintro rfl
    exact absurd h (by decide)

theorem IsDigits.not_signed {digits : List Char} (h : IsDigits digits) :
    ∀ c ∈ digits.head?, c ≠ '+' ∧ c ≠ '-' :=
  fun c hHead => not_sign_of_isDigit (h.2 c (List.mem_of_mem_head? hHead))

/-! ## Integers -/

/-- The integers that texts spell: an optional sign and one or more digits, any number of leading
zeros among them. -/
inductive SpellsInt : List Char → Int → Prop
  | intro {sign digits : List Char} {negative : Bool} : IsSign sign negative → IsDigits digits →
      SpellsInt (sign ++ digits) (signed negative (placeValue digits))

/-- A text spells an integer exactly where nothing but digits is behind its sign. -/
theorem spellsInt_iff {cs : List Char} {n : Int} :
    SpellsInt cs n ↔ IsDigits (splitSign cs).2 ∧
      n = signed (splitSign cs).1 (digitsValue (splitSign cs).2) := by
  constructor
  · rintro ⟨hSign, hDigits⟩
    rw [splitSign_append hSign hDigits.not_signed, digitsValue_eq_placeValue]
    exact ⟨hDigits, rfl⟩
  · rintro ⟨hDigits, rfl⟩
    obtain ⟨sign, hSign, hSplit⟩ := splitSign_cases cs
    have hSpells := SpellsInt.intro hSign hDigits
    rwa [← hSplit, ← digitsValue_eq_placeValue] at hSpells

/-- A text spells one integer at most. -/
theorem SpellsInt.unique {cs : List Char} {n k : Int} (h : SpellsInt cs n)
    (hOther : SpellsInt cs k) : n = k := by
  obtain ⟨-, rfl⟩ := spellsInt_iff.mp h
  obtain ⟨-, rfl⟩ := spellsInt_iff.mp hOther
  rfl

/-- **An integer is read exactly where it is spelled and fits into 64 bits.** -/
theorem readInt?_eq_some_iff {cs : List Char} {n : Int} :
    readInt? cs = some n ↔ SpellsInt cs n ∧ fitsInt64 n = true := by
  rw [spellsInt_iff, ← isDigits_iff]
  simp only [readInt?]
  split
  case isTrue hNone => simp [hNone]
  case isFalse hDigits =>
    simp only [hDigits, true_and]
    split
    case isTrue hFits => grind
    case isFalse hOutside => grind

theorem fitsInt64_iff {n : Int} : fitsInt64 n = true ↔ -2 ^ 63 ≤ n ∧ n ≤ 2 ^ 63 - 1 := by
  simp [fitsInt64, twoTo]
  omega

/-! ## Doubles -/

/-- The significands of numerals, with their digits before and after the point.  The point may be
missing, and so may the digits on one of its sides. -/
inductive IsSignificand : List Char → List Char → List Char → Prop
  | whole {whole : List Char} : IsDigits whole → IsSignificand whole whole []
  | pointed {whole places : List Char} : IsDigits (whole ++ places) →
      IsSignificand (whole ++ '.' :: places) whole places

/-- The exponents of numerals: none, or the letter in either case with an optional sign and one or
more digits. -/
inductive IsExponent : List Char → Int → Prop
  | none : IsExponent [] 0
  | some {mark : Char} {cs : List Char} {n : Int} : mark = 'e' ∨ mark = 'E' → SpellsInt cs n →
      IsExponent (mark :: cs) n

/-- A word in lower case. -/
def lowered (word : List Char) : String :=
  String.ofList (word.map Char.toLower)

/-- The doubles that texts spell: an optional sign and either a decimal numeral or, in any case, one
of three words. -/
inductive SpellsDouble : List Char → Double → Prop
  | decimal {sign significand exponent whole places : List Char} {negative : Bool} {e : Int} :
      IsSign sign negative → IsSignificand significand whole places → IsExponent exponent e →
      SpellsDouble (sign ++ (significand ++ exponent))
        (Double.ofDecimal negative (placeValue (whole ++ places)) (e - places.length))
  | infinite {sign word : List Char} {negative : Bool} : IsSign sign negative →
      lowered word = "inf" ∨ lowered word = "infinity" →
      SpellsDouble (sign ++ word) (Double.infinity negative)
  | nan {sign word : List Char} {negative : Bool} : IsSign sign negative → lowered word = "nan" →
      SpellsDouble (sign ++ word) Double.nan

/-! ### Numerals -/

theorem readExponent?_eq_some_iff {cs : List Char} {e : Int} :
    readExponent? cs = some e ↔ IsExponent cs e := by
  cases cs with
  | nil =>
    constructor
    · rintro ⟨⟩
      exact .none
    · rintro ⟨⟩
      rfl
  | cons mark cs =>
    have hExponent : IsExponent (mark :: cs) e ↔ (mark = 'e' ∨ mark = 'E') ∧ SpellsInt cs e := by
      constructor
      · rintro (_ | ⟨hMark, hSpells⟩)
        exact ⟨hMark, hSpells⟩
      · rintro ⟨hMark, hSpells⟩
        exact .some hMark hSpells
    rw [hExponent, spellsInt_iff, ← isDigits_iff]
    simp only [readExponent?]
    grind

theorem IsExponent.not_digit {cs : List Char} {e : Int} (h : IsExponent cs e) :
    ∀ c ∈ cs.head?, c.isDigit = false ∧ c ≠ '.' := by
  intro c hHead
  cases h with
  | none => cases hHead
  | some hMark =>
    cases hHead
    rcases hMark with rfl | rfl <;> decide

theorem IsSignificand.exists_cons {significand whole places : List Char}
    (h : IsSignificand significand whole places) :
    ∃ c rest, significand = c :: rest ∧ (c.isDigit = true ∨ c = '.') := by
  cases h with
  | whole hDigits =>
    obtain ⟨c, rest, rfl⟩ := List.exists_cons_of_ne_nil hDigits.1
    exact ⟨c, rest, rfl, .inl (hDigits.2 c List.mem_cons_self)⟩
  | pointed hDigits =>
    cases whole with
    | nil => exact ⟨'.', places, rfl, .inr rfl⟩
    | cons c rest =>
      exact ⟨c, rest ++ '.' :: places, rfl, .inl (hDigits.2 c List.mem_cons_self)⟩

theorem span_digits {digits rest : List Char} (hDigits : ∀ c ∈ digits, c.isDigit = true)
    (hRest : ∀ c ∈ rest.head?, c.isDigit = false) :
    (digits ++ rest).takeWhile Char.isDigit = digits ∧
      (digits ++ rest).dropWhile Char.isDigit = rest := by
  rw [List.takeWhile_append_of_pos hDigits, List.dropWhile_append_of_pos hDigits]
  cases rest with
  | nil => simp
  | cons c rest => simp [hRest c rfl]

/-- Every text is digits, and after them something that does not begin with one. -/
theorem exists_span_digits (cs : List Char) :
    ∃ digits rest, cs = digits ++ rest ∧ (∀ c ∈ digits, c.isDigit = true) ∧
      ∀ c ∈ rest.head?, c.isDigit = false := by
  refine ⟨cs.takeWhile Char.isDigit, cs.dropWhile Char.isDigit,
    List.takeWhile_append_dropWhile.symm, fun c hMem => List.mem_takeWhile_imp hMem, ?_⟩
  intro c hHead
  have hNot := List.head?_dropWhile_not Char.isDigit cs
  rw [Option.mem_def.mp hHead] at hNot
  simpa using hNot

theorem readNumeral?_whole {whole rest : List Char} (hWhole : ∀ c ∈ whole, c.isDigit = true)
    (hRest : ∀ c ∈ rest.head?, c.isDigit = false ∧ c ≠ '.') :
    readNumeral? (whole ++ rest) =
      if whole = [] then none else (readExponent? rest).map (⟨whole, [], ·⟩) := by
  obtain ⟨hTake, hDrop⟩ := span_digits hWhole fun c hHead => (hRest c hHead).1
  simp only [readNumeral?, hTake, hDrop]
  cases rest with
  | nil => simp
  | cons c rest =>
    have hPoint : c ≠ '.' := (hRest c rfl).2
    simp [hPoint]

theorem readNumeral?_pointed {whole places rest : List Char}
    (hDigits : ∀ c ∈ whole ++ places, c.isDigit = true)
    (hRest : ∀ c ∈ rest.head?, c.isDigit = false) :
    readNumeral? (whole ++ '.' :: (places ++ rest)) =
      if whole ++ places = [] then none else (readExponent? rest).map (⟨whole, places, ·⟩) := by
  have hWhole := @span_digits whole ('.' :: (places ++ rest))
    (fun c hMem => hDigits c (List.mem_append_left _ hMem)) (by simp)
  have hPlaces := span_digits (fun c hMem => hDigits c (List.mem_append_right _ hMem)) hRest
  simp [readNumeral?, hWhole, hPlaces]

/-- An unsigned numeral is read exactly where a significand and an exponent make up the text. -/
theorem readNumeral?_eq_some_iff {cs : List Char} {n : Numeral} :
    readNumeral? cs = some n ↔ ∃ significand exponent, cs = significand ++ exponent ∧
      IsSignificand significand n.whole n.places ∧ IsExponent exponent n.exponent := by
  constructor
  · intro hRead
    obtain ⟨whole, rest, rfl, hWhole, hRest⟩ := exists_span_digits cs
    -- Behind the first digits there may be a point, and then digits again.
    by_cases hPoint : '.' ∈ rest.head?
    · obtain ⟨behind, rfl⟩ := List.head?_eq_some_iff.mp hPoint
      obtain ⟨places, rest, rfl, hPlaces, hRest⟩ := exists_span_digits behind
      have hDigits : ∀ c ∈ whole ++ places, c.isDigit = true :=
        fun c hMem => (List.mem_append.mp hMem).elim (hWhole c) (hPlaces c)
      rw [readNumeral?_pointed hDigits hRest] at hRead
      split at hRead
      case isTrue => cases hRead
      case isFalse hSome =>
        obtain ⟨e, hExponent, rfl⟩ := Option.map_eq_some_iff.mp hRead
        exact ⟨whole ++ '.' :: places, rest, by simp, .pointed ⟨hSome, hDigits⟩,
          readExponent?_eq_some_iff.mp hExponent⟩
    · have hOther : ∀ c ∈ rest.head?, c.isDigit = false ∧ c ≠ '.' :=
        fun c hHead => ⟨hRest c hHead, fun hSame => hPoint (hSame ▸ hHead)⟩
      rw [readNumeral?_whole hWhole hOther] at hRead
      split at hRead
      case isTrue => cases hRead
      case isFalse hSome =>
        obtain ⟨e, hExponent, rfl⟩ := Option.map_eq_some_iff.mp hRead
        exact ⟨whole, rest, rfl, .whole ⟨hSome, hWhole⟩, readExponent?_eq_some_iff.mp hExponent⟩
  · rintro ⟨significand, exponent, rfl, hSignificand, hExponent⟩
    obtain ⟨whole, places, e⟩ := n
    have hOther := hExponent.not_digit
    have hRead : readExponent? exponent = some e := readExponent?_eq_some_iff.mpr hExponent
    cases hSignificand with
    | whole hDigits =>
      rw [readNumeral?_whole hDigits.2 hOther, if_neg hDigits.1, hRead]
      rfl
    | pointed hDigits =>
      rw [List.append_assoc, List.cons_append,
        readNumeral?_pointed hDigits.2 fun c hHead => (hOther c hHead).1, if_neg hDigits.1, hRead]
      rfl

/-! ### Words -/

theorem isAlpha_of_toLower {c : Char} (h : c.toLower.isAlpha = true) : c.isAlpha = true := by
  unfold Char.toLower at h
  split at h
  case isTrue hUpper =>
    have hIsUpper : c.isUpper = true := by simpa [Char.isUpper] using hUpper
    simp [Char.isAlpha, hIsUpper]
  case isFalse => exact h

theorem isAlpha_of_lowered {word : List Char} {name : String} (h : lowered word = name)
    (hName : name.toList.all Char.isAlpha = true) : ∀ c ∈ word, c.isAlpha = true := by
  intro c hMem
  apply isAlpha_of_toLower
  rw [← h, lowered, String.toList_ofList, List.all_map] at hName
  exact List.all_eq_true.mp hName c hMem

theorem not_numeral_of_isAlpha {c : Char} (h : c.isAlpha = true) :
    (c.isDigit = false ∧ c ≠ '.') ∧ c ≠ '+' ∧ c ≠ '-' := by
  refine ⟨⟨?_, ?_⟩, ?_, ?_⟩
  · simp [Char.isAlpha, Char.isUpper, Char.isLower, Char.isDigit, UInt32.le_iff_toNat_le] at h ⊢
    omega
  all_goals
    rintro rfl
    exact absurd h (by decide)

/-- A word of letters is not read as a numeral. -/
theorem readDouble?_word {sign word : List Char} {negative : Bool} (hSign : IsSign sign negative)
    (hWord : ∀ c ∈ word, c.isAlpha = true) :
    readDouble? (sign ++ word) =
      if lowered word = "inf" ∨ lowered word = "infinity" then some (Double.infinity negative)
      else if lowered word = "nan" then some Double.nan else none := by
  have hFirst (c : Char) (hHead : c ∈ word.head?) :=
    not_numeral_of_isAlpha (hWord c (List.mem_of_mem_head? hHead))
  have hSplit := splitSign_append hSign fun c hHead => (hFirst c hHead).2
  have hNumeral : readNumeral? word = none :=
    @readNumeral?_whole [] word (by simp) fun c hHead => (hFirst c hHead).1
  simp only [readDouble?, hSplit, hNumeral]
  grind [lowered]

/-- **A double is read exactly where it is spelled.** -/
theorem readDouble?_eq_some_iff {cs : List Char} {x : Double} :
    readDouble? cs = some x ↔ SpellsDouble cs x := by
  constructor
  · intro hRead
    obtain ⟨sign, hSign, hSplit⟩ := splitSign_cases cs
    simp only [readDouble?] at hRead
    rw [hSplit]
    generalize (splitSign cs).1 = negative at *
    generalize (splitSign cs).2 = rest at *
    split at hRead
    case h_1 n hNumeral =>
      cases hRead
      obtain ⟨significand, exponent, rfl, hSignificand, hExponent⟩ :=
        readNumeral?_eq_some_iff.mp hNumeral
      rw [Numeral.toDouble, digitsValue_eq_placeValue]
      exact .decimal hSign hSignificand hExponent
    case h_2 =>
      simp only [Bool.or_eq_true, beq_iff_eq, ← lowered.eq_def] at hRead
      split at hRead
      case isTrue hName =>
        cases hRead
        exact .infinite hSign hName
      case isFalse =>
        split at hRead
        case isTrue hName =>
          cases hRead
          exact .nan hSign hName
        case isFalse => cases hRead
  · intro hSpells
    cases hSpells with
    | @decimal sign significand exponent whole places negative e hSign hSignificand hExponent =>
      -- The first character of the significand is no sign, so only the sign is split off.
      have hUnsigned : ∀ c ∈ (significand ++ exponent).head?, c ≠ '+' ∧ c ≠ '-' := by
        obtain ⟨first, rest, rfl, hFirst⟩ := hSignificand.exists_cons
        rintro c ⟨⟩
        rcases hFirst with hDigit | rfl
        · exact not_sign_of_isDigit hDigit
        · decide
      have hNumeral := readNumeral?_eq_some_iff (n := ⟨whole, places, e⟩).mpr
        ⟨significand, exponent, rfl, hSignificand, hExponent⟩
      simp only [readDouble?, splitSign_append hSign hUnsigned, hNumeral]
      rw [Numeral.toDouble, digitsValue_eq_placeValue]
    | infinite hSign hName =>
      rw [readDouble?_word hSign, if_pos hName]
      rcases hName with hName | hName
      · exact isAlpha_of_lowered hName (by decide)
      · exact isAlpha_of_lowered hName (by decide)
    | nan hSign hName =>
      rw [readDouble?_word hSign (isAlpha_of_lowered hName (by decide)), hName,
        if_neg (by decide), if_pos rfl]

/-- A text that spells an integer other than zero spells the double nearest to it. -/
theorem SpellsInt.spellsDouble {cs : List Char} {n : Int} (h : SpellsInt cs n) (hNe : n ≠ 0) :
    SpellsDouble cs (Double.ofDecimal (n < 0) n.natAbs 0) := by
  obtain @⟨sign, digits, negative, hSign, hDigits⟩ := h
  have hSpells := SpellsDouble.decimal hSign (.whole hDigits) .none
  have hNegative : decide (signed negative (placeValue digits) < 0) = negative := by
    cases negative with
    | false => simp [signed]
    | true =>
      simp [signed] at hNe ⊢
      omega
  have hMagnitude : (signed negative (placeValue digits)).natAbs = placeValue digits := by
    cases negative <;> simp [signed]
  rw [hNegative, hMagnitude]
  simpa using hSpells

/-! ## Characters -/

/-- A visible ASCII character. -/
def IsGraphic (c : Char) : Prop :=
  0x20 < c.toNat ∧ c.toNat < 0x7F

theorem isGraphic_of_isDigit {c : Char} (h : c.isDigit = true) : IsGraphic c := by
  simp [Char.isDigit, UInt32.le_iff_toNat_le] at h
  simp [IsGraphic]
  omega

theorem isGraphic_of_isAlpha {c : Char} (h : c.isAlpha = true) : IsGraphic c := by
  simp [Char.isAlpha, Char.isUpper, Char.isLower, UInt32.le_iff_toNat_le] at h
  simp [IsGraphic]
  omega

theorem IsSign.isGraphic {sign : List Char} {negative : Bool} (h : IsSign sign negative) :
    ∀ c ∈ sign, IsGraphic c := by
  cases h <;> simp [IsGraphic]

theorem IsDigits.isGraphic {digits : List Char} (h : IsDigits digits) :
    ∀ c ∈ digits, IsGraphic c :=
  fun c hMem => isGraphic_of_isDigit (h.2 c hMem)

theorem SpellsInt.isGraphic {cs : List Char} {n : Int} (h : SpellsInt cs n) :
    ∀ c ∈ cs, IsGraphic c := by
  obtain ⟨hSign, hDigits⟩ := h
  intro c hMem
  rcases List.mem_append.mp hMem with hMem | hMem
  · exact hSign.isGraphic c hMem
  · exact hDigits.isGraphic c hMem

theorem IsSignificand.isGraphic {significand whole places : List Char}
    (h : IsSignificand significand whole places) : ∀ c ∈ significand, IsGraphic c := by
  cases h with
  | whole hDigits => exact hDigits.isGraphic
  | pointed hDigits =>
    intro c hMem
    simp only [List.mem_append, List.mem_cons] at hMem
    rcases hMem with hMem | rfl | hMem
    · exact hDigits.isGraphic c (List.mem_append_left _ hMem)
    · simp [IsGraphic]
    · exact hDigits.isGraphic c (List.mem_append_right _ hMem)

theorem IsExponent.isGraphic {cs : List Char} {e : Int} (h : IsExponent cs e) :
    ∀ c ∈ cs, IsGraphic c := by
  cases h with
  | none => simp
  | some hMark hSpells =>
    intro c hMem
    rcases List.mem_cons.mp hMem with rfl | hMem
    · rcases hMark with rfl | rfl <;> simp [IsGraphic]
    · exact hSpells.isGraphic c hMem

/-- **A number is written with visible ASCII characters only.** -/
theorem SpellsDouble.isGraphic {cs : List Char} {x : Double} (h : SpellsDouble cs x) :
    ∀ c ∈ cs, IsGraphic c := by
  have hWord {word : List Char} {name : String} (hName : lowered word = name)
      (hAlpha : name.toList.all Char.isAlpha = true) : ∀ c ∈ word, IsGraphic c :=
    fun c hMem => isGraphic_of_isAlpha (isAlpha_of_lowered hName hAlpha c hMem)
  intro c hMem
  cases h with
  | decimal hSign hSignificand hExponent =>
    simp only [List.mem_append] at hMem
    rcases hMem with hMem | hMem | hMem
    · exact hSign.isGraphic c hMem
    · exact hSignificand.isGraphic c hMem
    · exact hExponent.isGraphic c hMem
  | infinite hSign hName =>
    rcases List.mem_append.mp hMem with hMem | hMem
    · exact hSign.isGraphic c hMem
    · rcases hName with hName | hName
      · exact hWord hName (by decide) c hMem
      · exact hWord hName (by decide) c hMem
  | nan hSign hName =>
    rcases List.mem_append.mp hMem with hMem | hMem
    · exact hSign.isGraphic c hMem
    · exact hWord hName (by decide) c hMem

end SqlMetrics.Number
