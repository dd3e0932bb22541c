import Mathlib
import SqlMetrics.Text.Utf8

/-!
# Reading encoded text back

The lossy decoder reads every encoded text back unchanged, and where the bytes are those of no text
it leaves a replacement character behind.

- **Lead bytes**: `lead?_two`, `lead?_three` and `lead?_four` say what a lead byte announces, by the
  bits that it carries.
- **Characters**: the bytes of a character by the number of bytes.
- **Heads**: `head_encodeChar` and `encodeChar_of_head` say that a character is read at the head
  exactly where its bytes stand there.
- **Text**: `decodeLossy_encode` and `replacement_mem_of_malformed`.
-/

namespace SqlMetrics.Text

namespace Utf8

/-! ## Lead bytes -/

theorem lead?_two {bits : Nat} (hLow : 2 ≤ bits) (hHigh : bits < 32) :
    lead? (0xC0 + bits) = some ⟨1, bits, 0x80, 0xBF⟩ := by
  simp [lead?]
  omega

theorem lead?_three {bits : Nat} (h : bits < 16) :
    lead? (0xE0 + bits) =
      some ⟨2, bits, if bits = 0 then 0xA0 else 0x80, if bits = 0xD then 0x9F else 0xBF⟩ := by
  simp only [lead?]
  grind

theorem lead?_four {bits : Nat} (h : bits < 5) :
    lead? (0xF0 + bits) =
      some ⟨3, bits, if bits = 0 then 0x90 else 0x80, if bits = 4 then 0x8F else 0xBF⟩ := by
  simp only [lead?]
  grind

theorem bounds_of_lead? {b : Nat} {l : Lead} (h : lead? b = some l) : 0xC2 ≤ b ∧ b < 0xF5 := by
  unfold lead? at h
  grind

/-! ## Characters -/

theorem toNat_ofNat {n : Nat} (h : n < 0xD800 ∨ 0xDFFF < n ∧ n < 0x110000) :
    (Char.ofNat n).toNat = n := by
  have hValid : n.isValidChar := h
  simp [Char.ofNat, hValid, Char.toNat, Char.ofNatAux]

variable {c : Char}

theorem encodeChar_one (h : c.toNat < 0x80) :
    String.utf8EncodeChar c = [UInt8.ofNat c.toNat] := by
  simp only [String.utf8EncodeChar, Char.toNat_val]
  rw [if_pos (by omega)]

theorem encodeChar_two (hLow : 0x80 ≤ c.toNat) (hHigh : c.toNat < 0x800) :
    String.utf8EncodeChar c =
      [UInt8.ofNat (0xC0 + c.toNat / 64), UInt8.ofNat (0x80 + c.toNat % 64)] := by
  simp only [String.utf8EncodeChar, Char.toNat_val]
  rw [if_neg (by omega), if_pos (by omega), Nat.mod_eq_of_lt (by omega), Nat.add_comm,
    Nat.add_comm 0x80]

theorem encodeChar_three (hLow : 0x800 ≤ c.toNat) (hHigh : c.toNat < 0x10000) :
    String.utf8EncodeChar c =
      [UInt8.ofNat (0xE0 + c.toNat / 4096), UInt8.ofNat (0x80 + c.toNat / 64 % 64),
        UInt8.ofNat (0x80 + c.toNat % 64)] := by
  simp only [String.utf8EncodeChar, Char.toNat_val]
  rw [if_neg (by omega), if_neg (by omega), if_pos (by omega),
    Nat.mod_eq_of_lt (b := 16) (by omega), Nat.add_comm, Nat.add_comm 0x80, Nat.add_comm 0x80]

theorem encodeChar_four (h : 0x10000 ≤ c.toNat) :
    String.utf8EncodeChar c =
      [UInt8.ofNat (0xF0 + c.toNat / 262144), UInt8.ofNat (0x80 + c.toNat / 4096 % 64),
        UInt8.ofNat (0x80 + c.toNat / 64 % 64), UInt8.ofNat (0x80 + c.toNat % 64)] := by
  have hValid : c.toNat < 0xD800 ∨ 0xDFFF < c.toNat ∧ c.toNat < 0x110000 := c.valid
  simp only [String.utf8EncodeChar, Char.toNat_val]
  rw [if_neg (by omega), if_neg (by omega), if_neg (by omega),
    Nat.mod_eq_of_lt (b := 8) (by omega), Nat.add_comm, Nat.add_comm 0x80, Nat.add_comm 0x80,
    Nat.add_comm 0x80]

/-! ## Heads -/

variable {b : UInt8} {rest : Bytes} {bits more : Nat}

theorem head_eq_char_one (h : b.toNat < 0x80) :
    head b rest = .char c more ↔ c = Char.ofNat b.toNat ∧ more = 0 := by
  simp [head, h, eq_comm]

theorem head_eq_char_two (hByte : b.toNat = 0xC0 + bits) (hLow : 2 ≤ bits) (hHigh : bits < 32) :
    head b rest = .char c more ↔ ∃ x tail, rest = x :: tail ∧ 0x80 ≤ x.toNat ∧ x.toNat < 0xC0 ∧
      c = Char.ofNat (bits * 64 + (x.toNat - 0x80)) ∧ more = 1 := by
  rw [head, hByte, if_neg (by omega), lead?_two hLow hHigh]
  cases rest with
  | nil => simp
  | cons x tail =>
    by_cases hRange : x.toNat < 0x80 ∨ 0xBF < x.toNat
    · simp [hRange]
      omega
    · simp [hRange]
      grind

theorem head_eq_char_three (hByte : b.toNat = 0xE0 + bits) (hHigh : bits < 16) :
    head b rest = .char c more ↔ ∃ x y tail, rest = x :: y :: tail ∧
      0x80 ≤ x.toNat ∧ x.toNat < 0xC0 ∧ 0x80 ≤ y.toNat ∧ y.toNat < 0xC0 ∧
      (bits = 0 → 0xA0 ≤ x.toNat) ∧ (bits = 0xD → x.toNat < 0xA0) ∧
      c = Char.ofNat ((bits * 64 + (x.toNat - 0x80)) * 64 + (y.toNat - 0x80)) ∧ more = 2 := by
  rw [head, hByte, if_neg (by omega), lead?_three hHigh]
  -- On the bytes that follow: with fewer than two the character is cut short.
  match rest with
  | [] => simp
  | [x] =>
    simp
    grind
  | x :: y :: tail =>
    simp [isContinuation]
    grind

theorem head_eq_char_four (hByte : b.toNat = 0xF0 + bits) (hHigh : bits < 5) :
    head b rest = .char c more ↔ ∃ x y z tail, rest = x :: y :: z :: tail ∧
      0x80 ≤ x.toNat ∧ x.toNat < 0xC0 ∧ 0x80 ≤ y.toNat ∧ y.toNat < 0xC0 ∧
      0x80 ≤ z.toNat ∧ z.toNat < 0xC0 ∧
      (bits = 0 → 0x90 ≤ x.toNat) ∧ (bits = 4 → x.toNat < 0x90) ∧
      c = Char.ofNat (((bits * 64 + (x.toNat - 0x80)) * 64 + (y.toNat - 0x80)) * 64 +
        (z.toNat - 0x80)) ∧ more = 3 := by
  rw [head, hByte, if_neg (by omega), lead?_four hHigh]
  match rest with
  | [] => simp
  | [x] =>
    simp
    grind
  | [x, y] =>
    simp
    grind
  | x :: y :: z :: tail =>
    simp [isContinuation]
    grind

/-- What stands at the head of an encoded text is its first character. -/
theorem head_encodeChar {tail : Bytes} (h : String.utf8EncodeChar c = b :: tail) (rest : Bytes) :
    head b (tail ++ rest) = .char c tail.length := by
  have hValid : c.toNat < 0xD800 ∨ 0xDFFF < c.toNat ∧ c.toNat < 0x110000 := c.valid
  have hByte {n : Nat} (hn : n < 256) : (UInt8.ofNat n).toNat = n := by
    simp [UInt8.toNat_ofNat', Nat.mod_eq_of_lt hn]
  have hSelf {n : Nat} (hn : n = c.toNat) : c = Char.ofNat n := by
    rw [hn, Char.ofNat_toNat]
  -- By the number of bytes: the digits of the code to base 64 are read off and put together again.
  by_cases hOne : c.toNat < 0x80
  · rw [encodeChar_one hOne] at h
    cases h
    rw [head_eq_char_one (by rw [hByte] <;> omega), hByte (by omega)]
    exact ⟨hSelf rfl, rfl⟩
  by_cases hTwo : c.toNat < 0x800
  · rw [encodeChar_two (by omega) hTwo] at h
    cases h
    rw [head_eq_char_two (hByte (by omega)) (by omega) (by omega)]
    refine ⟨_, rest, rfl, ?_⟩
    rw [hByte (by omega)]
    refine ⟨by omega, by omega, ?_, rfl⟩
    apply hSelf
    omega
  by_cases hThree : c.toNat < 0x10000
  · rw [encodeChar_three (by omega) hThree] at h
    cases h
    rw [head_eq_char_three (hByte (by omega)) (by omega)]
    refine ⟨_, _, rest, rfl, ?_⟩
    rw [hByte (by omega), hByte (by omega)]
    refine ⟨by omega, by omega, by omega, by omega, by omega, by omega, ?_, rfl⟩
    apply hSelf
    omega
  · rw [encodeChar_four (by omega)] at h
    cases h
    rw [head_eq_char_four (hByte (by omega)) (by omega)]
    refine ⟨_, _, _, rest, rfl, ?_⟩
    rw [hByte (by omega), hByte (by omega), hByte (by omega)]
    refine ⟨by omega, by omega, by omega, by omega, by omega, by omega, by omega, by omega, ?_,
      rfl⟩
    apply hSelf
    omega

/-- A character is read at the head only where its bytes stand there. -/
theorem encodeChar_of_head (h : head b rest = .char c more) :
    String.utf8EncodeChar c = b :: rest.take more := by
  have hBound := b.toNat_lt
  have hSelf {x : UInt8} {n : Nat} (hn : n = x.toNat) : UInt8.ofNat n = x := by
    rw [hn, UInt8.ofNat_toNat]
  by_cases hOne : b.toNat < 0x80
  · obtain ⟨hChar, rfl⟩ := (head_eq_char_one hOne).mp h
    have hCode : c.toNat = b.toNat := hChar ▸ toNat_ofNat (by omega)
    rw [encodeChar_one (by omega), hCode, hSelf rfl]
    rfl
  have hLead : 0xC2 ≤ b.toNat ∧ b.toNat < 0xF5 := by
    cases hLead : lead? b.toNat with
    | none => simp [head, hOne, hLead] at h
    | some l => exact bounds_of_lead? hLead
  -- By the lead byte: the code has as many digits as there are bytes, so it is encoded with these.
  by_cases hTwo : b.toNat < 0xE0
  · obtain ⟨bits, hByte⟩ : ∃ bits, b.toNat = 0xC0 + bits := ⟨b.toNat - 0xC0, by omega⟩
    obtain ⟨x, tail, rfl, hLow, hHigh, hChar, rfl⟩ :=
      (head_eq_char_two hByte (by omega) (by omega)).mp h
    have hCode : c.toNat = bits * 64 + (x.toNat - 0x80) := hChar ▸ toNat_ofNat (by omega)
    rw [encodeChar_two (by omega) (by omega), hCode, hSelf (x := b) (by omega),
      hSelf (x := x) (by omega)]
    rfl
  by_cases hThree : b.toNat < 0xF0
  · obtain ⟨bits, hByte⟩ : ∃ bits, b.toNat = 0xE0 + bits := ⟨b.toNat - 0xE0, by omega⟩
    obtain ⟨x, y, tail, rfl, hLow, hHigh, hLow', hHigh', hLeast, hGreatest, hChar, rfl⟩ :=
      (head_eq_char_three hByte (by omega)).mp h
    have hCode : c.toNat = (bits * 64 + (x.toNat - 0x80)) * 64 + (y.toNat - 0x80) :=
      hChar ▸ toNat_ofNat (by omega)
    rw [encodeChar_three (by omega) (by omega), hCode, hSelf (x := b) (by omega),
      hSelf (x := x) (by omega), hSelf (x := y) (by omega)]
    rfl
  · obtain ⟨bits, hByte⟩ : ∃ bits, b.toNat = 0xF0 + bits := ⟨b.toNat - 0xF0, by omega⟩
    obtain ⟨x, y, z, tail, rfl, hLow, hHigh, hLow', hHigh', hLow'', hHigh'', hLeast, hGreatest,
      hChar, rfl⟩ := (head_eq_char_four hByte (by omega)).mp h
    have hCode : c.toNat = ((bits * 64 + (x.toNat - 0x80)) * 64 + (y.toNat - 0x80)) * 64 +
        (z.toNat - 0x80) := hChar ▸ toNat_ofNat (by omega)
    rw [encodeChar_four (by omega), hCode, hSelf (x := b) (by omega), hSelf (x := x) (by omega),
      hSelf (x := y) (by omega), hSelf (x := z) (by omega)]
    rfl

/-! ## Text -/

theorem decodeLossyChars_encodeChars (cs : List Char) :
    decodeLossyChars (encodeChars cs) = cs := by
  induction cs with
  | nil => rw [encodeChars, List.flatMap_nil, decodeLossyChars]
  | cons c rest ih =>
    obtain ⟨b, tail, hBytes⟩ := List.exists_cons_of_ne_nil (String.utf8EncodeChar_ne_nil (c := c))
    have hSplit : encodeChars (c :: rest) = b :: (tail ++ encodeChars rest) := by
      simp [encodeChars, hBytes]
    rw [hSplit, decodeLossyChars, head_encodeChar hBytes]
    simp [ih]

theorem encodeChars_decodeLossyChars {bytes : Bytes} (h : replacement ∉ decodeLossyChars bytes) :
    encodeChars (decodeLossyChars bytes) = bytes := by
  -- Along the decoder: a malformed part would have left a replacement character.
  fun_induction decodeLossyChars bytes with
  | case1 => rfl
  | case2 b rest c more hHead ih =>
    have hRest := ih fun hMem => h (List.mem_cons_of_mem _ hMem)
    rw [encodeChars] at hRest
    rw [encodeChars, List.flatMap_cons, encodeChar_of_head hHead, hRest, List.cons_append,
      List.take_append_drop]
  | case3 b rest more hHead ih => simp at h
  | case4 b rest hHead => simp at h

end Utf8

/-- **The lossy decoder reads every encoded text back.** -/
theorem decodeLossy_encode (text : String) : decodeLossy (encode text) = text := by
  rw [decodeLossy, encode, Utf8.decodeLossyChars_encodeChars, String.ofList_toList]

/-- **Bytes that are those of no text leave a replacement character behind.** -/
theorem replacement_mem_of_malformed {bytes : Bytes} (h : ∀ text, encode text ≠ bytes) :
    Utf8.replacement ∈ (decodeLossy bytes).toList := by
  refine Decidable.byContradiction fun hNone => ?_
  rw [decodeLossy, String.toList_ofList] at hNone
  apply h (String.ofList (Utf8.decodeLossyChars bytes))
  rw [encode, String.toList_ofList, Utf8.encodeChars_decodeLossyChars hNone]

end SqlMetrics.Text
