import Mathlib
import SqlMetrics.Proofs.Text.Utf8
import SqlMetrics.Url.Parser

/-!
# Escaped text

A text that is escaped for a part of a URL can be read back from it, if percent signs are escaped as
well.  What is escaped neither has a character that the part must not have, nor says by its dots
that it is a segment with a meaning of its own.

- **Reading back**: `unescape_escape`, and from it `escape_injective`.
- **Characters**: `not_mem_escape` and `escape_eq_self`.
- **Dots**: `eq_replicate_of_dotCount?_escape`.
-/

namespace SqlMetrics.Url

variable {s : EscapeSet}

/-! ## Reading back -/

theorem hexValue?_hexDigit {n : Nat} (h : n < 16) : hexValue? (hexDigit n) = some n := by
  interval_cases n <;> rfl

theorem unescape_escapeByte (b : UInt8) (rest : List Char) :
    unescape (escapeByte b ++ rest) = b :: unescape rest := by
  have hBound := b.toNat_lt
  have hSame : 16 * (b.toNat / 16) + b.toNat % 16 = b.toNat := Nat.div_add_mod _ _
  rw [escapeByte, List.cons_append, List.cons_append, List.cons_append, List.nil_append, unescape,
    hexValue?_hexDigit (by omega), hexValue?_hexDigit (by omega)]
  simp only [hSame, UInt8.ofNat_toNat]

theorem unescape_escapeBytes (bytes : Bytes) (rest : List Char) :
    unescape (bytes.flatMap escapeByte ++ rest) = bytes ++ unescape rest := by
  induction bytes with
  | nil => rfl
  | cons b bytes ih =>
    rw [List.flatMap_cons, List.append_assoc, unescape_escapeByte, ih, List.cons_append]

theorem unescape_cons {c : Char} (h : c ≠ '%') (rest : List Char) :
    unescape (c :: rest) = String.utf8EncodeChar c ++ unescape rest := by
  rw [unescape]
  simp [h]

/-- **What is escaped stands for the bytes of the text**, if percent signs are escaped as well. -/
theorem unescape_escape (hPercent : s.escapes '%' = true) (cs : List Char) :
    unescape (escape s cs) = Text.Utf8.encodeChars cs := by
  induction cs with
  | nil => rw [escape, List.flatMap_nil, unescape, Text.Utf8.encodeChars, List.flatMap_nil]
  | cons c cs ih =>
    rw [escape, List.flatMap_cons, ← escape, Text.Utf8.encodeChars, List.flatMap_cons,
      ← Text.Utf8.encodeChars, ← ih, escapeChar]
    split
    · exact unescape_escapeBytes _ _
    · rename_i hPlain
      have hOther : c ≠ '%' := fun hSame => hPlain (hSame ▸ hPercent)
      exact unescape_cons hOther _

/-- Two texts that are escaped alike are the same. -/
theorem escape_injective (hPercent : s.escapes '%' = true) {cs ds : List Char}
    (h : escape s cs = escape s ds) : cs = ds := by
  have hBytes := congrArg unescape h
  rw [unescape_escape hPercent, unescape_escape hPercent] at hBytes
  rw [← Text.Utf8.decodeLossyChars_encodeChars cs, hBytes, Text.Utf8.decodeLossyChars_encodeChars]

/-! ## Characters -/

/-- The characters of what is escaped: those of the text that need no escape, percent signs and
hexadecimal digits. -/
theorem mem_escape {c : Char} {cs : List Char} (h : c ∈ escape s cs) :
    (c ∈ cs ∧ s.escapes c = false) ∨ c = '%' ∨ ∃ n < 16, c = hexDigit n := by
  obtain ⟨d, hMem, hChar⟩ := List.mem_flatMap.mp h
  rw [escapeChar] at hChar
  split at hChar
  · obtain ⟨b, -, hDigit⟩ := List.mem_flatMap.mp hChar
    have hBound := b.toNat_lt
    simp only [escapeByte, List.mem_cons, List.not_mem_nil, or_false] at hDigit
    rcases hDigit with hMark | hHigh | hLow
    · exact .inr (.inl hMark)
    · exact .inr (.inr ⟨_, by omega, hHigh⟩)
    · exact .inr (.inr ⟨_, by omega, hLow⟩)
  · rename_i hPlain
    obtain rfl := List.mem_singleton.mp hChar
    exact .inl ⟨hMem, by simpa using hPlain⟩

/-- A text of characters that need no escape is left as it is. -/
theorem escape_eq_self {cs : List Char} (h : ∀ c ∈ cs, s.escapes c = false) : escape s cs = cs := by
  induction cs with
  | nil => rfl
  | cons c cs ih =>
    obtain ⟨hFirst, hRest⟩ := List.forall_mem_cons.mp h
    rw [escape, List.flatMap_cons, ← escape, ih hRest, escapeChar, hFirst]
    rfl

/-! ## Dots -/

theorem hexDigit_ne_e {n : Nat} (h : n < 16) : hexDigit n ≠ 'e' := by
  interval_cases n <;> decide

theorem eq_of_hexDigit_eq_two {n : Nat} (h : n < 16) (hDigit : hexDigit n = '2') : n = 2 := by
  interval_cases n <;> first | rfl | exact absurd hDigit (by decide)

theorem eq_of_hexDigit_eq_E {n : Nat} (h : n < 16) (hDigit : hexDigit n = 'E') : n = 14 := by
  interval_cases n <;> first | rfl | exact absurd hDigit (by decide)

/-- The escape of a byte counts as a dot only if the byte is one. -/
theorem dotCount?_escapeByte {b : UInt8} (h : b ≠ 0x2E) (rest : List Char) :
    dotCount? (escapeByte b ++ rest) = none := by
  have hBound := b.toNat_lt
  have hLow := hexDigit_ne_e (n := b.toNat % 16) (by omega)
  rw [escapeByte, List.cons_append, List.cons_append, List.cons_append, List.nil_append]
  have hNoDot : hexDigit (b.toNat / 16) = '2' → hexDigit (b.toNat % 16) = 'E' → False := by
    intro hTwo hE
    have hFirst := eq_of_hexDigit_eq_two (by omega) hTwo
    have hSecond := eq_of_hexDigit_eq_E (by omega) hE
    apply h
    apply UInt8.toNat_inj.mp
    change b.toNat = 46
    omega
  unfold dotCount?
  grind

theorem head_encodeChar_ne_dot {c : Char} (h : c ≠ '.') {b : UInt8} {bytes : Bytes}
    (hBytes : String.utf8EncodeChar c = b :: bytes) : b ≠ 0x2E := by
  rintro rfl
  have hHead := Text.Utf8.head_encodeChar hBytes []
  rw [Text.Utf8.head_eq_char_one (by decide)] at hHead
  exact h hHead.1

/-- **What is escaped counts as dots only if the text is dots.** -/
theorem eq_replicate_of_dotCount?_escape (hPercent : s.escapes '%' = true) {n : Nat}
    {cs : List Char} (h : dotCount? (escape s cs) = some n) : cs = List.replicate n '.' := by
  induction cs generalizing n with
  | nil =>
    cases h
    rfl
  | cons c cs ih =>
    rw [escape, List.flatMap_cons, ← escape, escapeChar] at h
    by_cases hDot : c = '.'
    · -- Written as it is or escaped, a dot is counted.
      have hCount : (dotCount? (escape s cs)).map (· + 1) = some n := by
        subst hDot
        split at h <;> exact h
      obtain ⟨m, hRest, rfl⟩ := Option.map_eq_some_iff.mp hCount
      rw [hDot, ih hRest, List.replicate_succ]
    · split at h
      · obtain ⟨b, bytes, hBytes⟩ :=
          List.exists_cons_of_ne_nil (String.utf8EncodeChar_ne_nil (c := c))
        rw [hBytes, List.flatMap_cons, List.append_assoc,
          dotCount?_escapeByte (head_encodeChar_ne_dot hDot hBytes)] at h
        cases h
      · rename_i hPlain
        have hOther : c ≠ '%' := fun hSame => hPlain (hSame ▸ hPercent)
        unfold dotCount? at h
        grind

end SqlMetrics.Url
