import Mathlib
import SqlMetrics.Proofs.Number.Text
import SqlMetrics.Proofs.Template.Expansion

/-!
# Which placeholders an expansion replaces

The expansion scans a template from left to right.  This file says what it does without a scan: a
placeholder is one wherever it stands in the text, and each position of the text is looked at on its
own.

- **Occurrences**: `OccursAt` is said of a position and a name.  Two of them never overlap
  (`OccursAt.separate`), so no occurrence hides another one from the scan.
- **Replacement**: `replaceEach` puts a text at the place of every occurrence and keeps every other
  character.  It meets the same pieces as the scan (`replaceEach_append`).
- **Fragments**: `IsFragment` says what replaces a placeholder, and `Refuses` why one cannot be
  replaced.  Only a text can be blank.
- **Expansion**: `expand_replaces_placeholders` puts them together.
-/

namespace SqlMetrics

/-! ## Blank text -/

namespace Text

theorem trimChars_eq_nil_iff {cs : List Char} :
    trimChars cs = [] ↔ ∀ c ∈ cs, isBlank c = true := by
  rw [trimChars, List.reverse_eq_nil_iff, List.dropWhile_eq_nil_iff]
  simp only [List.mem_reverse]
  constructor
  · intro h
    -- What is left after the leading blanks begins with a character that is none, or is nothing.
    cases hRest : cs.dropWhile isBlank with
    | nil => exact List.dropWhile_eq_nil_iff.mp hRest
    | cons c rest =>
      have hFirst : isBlank c = true := h c (by simp [hRest])
      have hHead := List.head?_dropWhile_not isBlank cs
      simp [hRest, hFirst] at hHead
  · intro h c hMem
    exact h c ((List.dropWhile_sublist isBlank).subset hMem)

end Text

/-- Only a null or a text can be rendered to white space alone. -/
theorem Value.exists_not_blank {v : Value} (hNull : v ≠ .null) (hText : ∀ s, v ≠ .text s) :
    ∃ c ∈ v.display.toList, Text.isBlank c = false := by
  cases v with
  | null => exact absurd rfl hNull
  | text s => exact absurd rfl (hText s)
  | int n => exact Number.exists_not_blank_intText n.toInt
  | float x => exact Number.exists_not_blank_plain x
  | bool b =>
    cases b with
    | true => exact ⟨'t', by decide, rfl⟩
    | false => exact ⟨'f', by decide, rfl⟩

namespace Template

/-! ## Occurrences -/

/-- A placeholder for the column `name` stands in the text at the position `p`. -/
structure OccursAt (cs : List Char) (p : Nat) (name : List Char) : Prop where
  ne_nil : name ≠ []
  nameChars : ∀ c ∈ name, isNameChar c = true
  isSource : (Piece.column name).source <+: cs.drop p

theorem length_source_column (name : List Char) :
    (Piece.column name).source.length = name.length + 3 := by
  simp [Piece.source]

theorem placeholder?_eq_some_iff {cs name rest : List Char} :
    placeholder? cs = some (name, rest) ↔
      name ≠ [] ∧ (∀ c ∈ name, isNameChar c = true) ∧ cs = (Piece.column name).source ++ rest := by
  constructor
  · intro h
    refine ⟨?_, ?_, source_of_placeholder? h⟩
    all_goals
      unfold placeholder? at h
      split at h
      case h_2 => cases h
      split at h
      case h_2 => cases h
      dsimp only at h
      split at h
      case isTrue => cases h
      case isFalse hSome => ?_
    · cases h
      simpa using hSome
    · cases h
      intro c hMem
      exact List.mem_takeWhile_imp hMem
  · rintro ⟨hNe, hName, rfl⟩
    have hBrace : isNameChar '\x7d' = false := by decide
    simp only [Piece.source, List.cons_append, List.append_assoc, placeholder?]
    rw [List.dropWhile_append_of_pos hName, List.takeWhile_append_of_pos hName]
    simp [hBrace, hNe]

theorem occursAt_iff {cs : List Char} {p : Nat} {name : List Char} :
    OccursAt cs p name ↔ ∃ rest, placeholder? (cs.drop p) = some (name, rest) := by
  constructor
  · rintro ⟨hNe, hName, rest, hRest⟩
    exact ⟨rest, placeholder?_eq_some_iff.mpr ⟨hNe, hName, hRest.symm⟩⟩
  · rintro ⟨rest, hFound⟩
    obtain ⟨hNe, hName, hRest⟩ := placeholder?_eq_some_iff.mp hFound
    exact ⟨hNe, hName, rest, hRest.symm⟩

namespace OccursAt

variable {cs : List Char} {p q : Nat} {name other : List Char}

theorem name_eq (h : OccursAt cs p name) (h' : OccursAt cs p other) : name = other := by
  obtain ⟨rest, hFound⟩ := occursAt_iff.mp h
  obtain ⟨rest', hFound'⟩ := occursAt_iff.mp h'
  rw [hFound] at hFound'
  cases hFound'
  rfl

/-- A placeholder begins with a hash sign and has no other one in it. -/
theorem getElem?_eq_hash (h : OccursAt cs p name) {k : Nat}
    (hWithin : k < (Piece.column name).source.length) : cs[p + k]? = some '#' ↔ k = 0 := by
  obtain ⟨rest, hRest⟩ := h.isSource
  have hChar : cs[p + k]? = (Piece.column name).source[k]? := by
    rw [← List.getElem?_drop, ← hRest, List.getElem?_append_left hWithin]
  rw [hChar]
  constructor
  · intro hHash
    cases k with
    | zero => rfl
    | succ k =>
      have hMem : '#' ∈ '\x7b' :: (name ++ ['\x7d']) := List.mem_of_getElem? hHash
      have hName : '#' ∈ name := by simpa using hMem
      exact absurd (h.nameChars '#' hName) (by decide)
  · rintro rfl
    rfl

/-- **Placeholders never overlap**: one that stands further on begins behind the end of the
other. -/
theorem separate (h : OccursAt cs p name) (h' : OccursAt cs q other) (hLess : p < q) :
    p + (Piece.column name).source.length ≤ q := by
  by_contra hInside
  -- The hash sign of the second one would stand inside the first one.
  have hHash : cs[q + 0]? = some '#' := by
    rw [h'.getElem?_eq_hash (by simp [length_source_column])]
  have hWithin : q - p < (Piece.column name).source.length := by omega
  have hFirst := (h.getElem?_eq_hash hWithin).mp (by rwa [Nat.add_sub_cancel' (Nat.le_of_lt hLess)])
  omega

end OccursAt

theorem occursAt_zero_iff {cs name : List Char} :
    OccursAt cs 0 name ↔ ∃ rest, placeholder? cs = some (name, rest) := by
  rw [occursAt_iff, List.drop_zero]

theorem occursAt_append_iff (before cs : List Char) (p : Nat) (name : List Char) :
    OccursAt (before ++ cs) (before.length + p) name ↔ OccursAt cs p name := by
  rw [occursAt_iff, occursAt_iff, List.drop_append, List.drop_eq_nil_of_le (by omega)]
  simp

/-- In a text that begins with a placeholder, one that occurs is this one or stands behind it. -/
theorem occursAt_of_placeholder?_eq_some {cs name rest : List Char}
    (hFound : placeholder? cs = some (name, rest)) {p : Nat} {other : List Char}
    (h : OccursAt cs p other) :
    p = 0 ∧ other = name ∨
      ∃ q, p = (Piece.column name).source.length + q ∧ OccursAt rest q other := by
  have hOccurs : OccursAt cs 0 name := occursAt_zero_iff.mpr ⟨rest, hFound⟩
  obtain rfl := source_of_placeholder? hFound
  cases p with
  | zero => exact .inl ⟨rfl, h.name_eq hOccurs⟩
  | succ p =>
    have hEnd := hOccurs.separate h (by omega)
    rw [Nat.zero_add] at hEnd
    obtain ⟨q, hq⟩ := Nat.exists_eq_add_of_le hEnd
    rw [hq, occursAt_append_iff] at h
    exact .inr ⟨q, hq, h⟩

theorem occursAt_of_placeholder?_eq_none {c : Char} {rest : List Char}
    (hNone : placeholder? (c :: rest) = none) {p : Nat} {name : List Char}
    (h : OccursAt (c :: rest) p name) : ∃ q, p = q + 1 ∧ OccursAt rest q name := by
  cases p with
  | zero =>
    obtain ⟨after, hFound⟩ := occursAt_zero_iff.mp h
    simp [hNone] at hFound
  | succ q =>
    rw [Nat.add_comm] at h
    exact ⟨q, rfl, (occursAt_append_iff [c] rest q name).mp h⟩

/-! ## Replacement -/

/-- The column of the placeholder that stands at a position. -/
def nameAt? (cs : List Char) (p : Nat) : Option (List Char) :=
  (placeholder? (cs.drop p)).map Prod.fst

/-- Whether a position is within a placeholder that begins before it. -/
def isWithin (cs : List Char) (p : Nat) : Bool :=
  (List.range p).any fun q =>
    (nameAt? cs q).any fun name => decide (p < q + (Piece.column name).source.length)

/-- What comes of a position: the text for the placeholder that stands there, or the character,
unless it is a part of a placeholder. -/
def replacementAt (text : List Char → List Char) (cs : List Char) (p : Nat) : List Char :=
  match nameAt? cs p with
  | some name => text name
  | none => if isWithin cs p then [] else cs[p]?.toList

/-- The text with every placeholder replaced and every other character kept, position by
position. -/
def replaceEach (text : List Char → List Char) (cs : List Char) : List Char :=
  (List.range cs.length).flatMap (replacementAt text cs)

theorem nameAt?_eq_some_iff {cs : List Char} {p : Nat} {name : List Char} :
    nameAt? cs p = some name ↔ OccursAt cs p name := by
  rw [occursAt_iff, nameAt?, Option.map_eq_some_iff]
  constructor
  · rintro ⟨⟨_, rest⟩, hFound, rfl⟩
    exact ⟨rest, hFound⟩
  · rintro ⟨rest, hFound⟩
    exact ⟨_, hFound, rfl⟩

theorem isWithin_eq_true_iff {cs : List Char} {p : Nat} :
    isWithin cs p = true ↔
      ∃ q name, OccursAt cs q name ∧ q < p ∧ p < q + (Piece.column name).source.length := by
  simp only [isWithin, List.any_eq_true, List.mem_range, Option.any_eq_true, nameAt?_eq_some_iff,
    decide_eq_true_eq]
  constructor
  · rintro ⟨q, hLess, name, hOccurs, hReach⟩
    exact ⟨q, name, hOccurs, hLess, hReach⟩
  · rintro ⟨q, name, hOccurs, hLess, hReach⟩
    exact ⟨q, hLess, name, hOccurs, hReach⟩

/-- Whether no placeholder that begins in the first part of a text reaches into the second part. -/
def SplitsAt (before cs : List Char) : Prop :=
  ∀ q name, q < before.length → OccursAt (before ++ cs) q name →
    q + (Piece.column name).source.length ≤ before.length

theorem replacementAt_append {before cs : List Char} (hSplit : SplitsAt before cs)
    (text : List Char → List Char) (p : Nat) :
    replacementAt text (before ++ cs) (before.length + p) = replacementAt text cs p := by
  have hName : nameAt? (before ++ cs) (before.length + p) = nameAt? cs p := by
    apply Option.ext
    intro name
    rw [nameAt?_eq_some_iff, nameAt?_eq_some_iff, occursAt_append_iff]
  have hWithin : isWithin (before ++ cs) (before.length + p) = isWithin cs p := by
    rw [Bool.eq_iff_iff, isWithin_eq_true_iff, isWithin_eq_true_iff]
    constructor
    · rintro ⟨q, name, hOccurs, hLess, hReach⟩
      have hBeyond : before.length ≤ q := by
        by_contra hBefore
        have hEnd := hSplit q name (by omega) hOccurs
        omega
      obtain ⟨q, rfl⟩ := Nat.exists_eq_add_of_le hBeyond
      exact ⟨q, name, (occursAt_append_iff before cs q name).mp hOccurs, by omega, by omega⟩
    · rintro ⟨q, name, hOccurs, hLess, hReach⟩
      exact ⟨before.length + q, name, (occursAt_append_iff before cs q name).mpr hOccurs, by omega,
        by omega⟩
  unfold replacementAt
  rw [hName, hWithin, List.getElem?_append_right (by omega), Nat.add_sub_cancel_left]

theorem replaceEach_append {before cs : List Char} (hSplit : SplitsAt before cs)
    (text : List Char → List Char) :
    replaceEach text (before ++ cs) =
      (List.range before.length).flatMap (replacementAt text (before ++ cs)) ++
        replaceEach text cs := by
  rw [replaceEach, List.length_append, List.range_add, List.flatMap_append, List.flatMap_map]
  congr 1
  apply List.flatMap_congr
  intro p _
  exact replacementAt_append hSplit text p

/-- A character at which no placeholder stands is kept. -/
theorem replaceEach_cons {c : Char} {cs : List Char} (hNone : placeholder? (c :: cs) = none)
    (text : List Char → List Char) : replaceEach text (c :: cs) = c :: replaceEach text cs := by
  have hSplit : SplitsAt [c] cs := by
    intro q name hLess hOccurs
    obtain ⟨k, rfl, -⟩ := occursAt_of_placeholder?_eq_none hNone hOccurs
    simp at hLess
  have hAll := replaceEach_append hSplit text
  simpa [replacementAt, nameAt?, isWithin, hNone] using hAll

theorem splitsAt_source {name rest : List Char}
    (hFound : placeholder? ((Piece.column name).source ++ rest) = some (name, rest)) :
    SplitsAt (Piece.column name).source rest := by
  intro q other hLess hOther
  rcases occursAt_of_placeholder?_eq_some hFound hOther with ⟨rfl, rfl⟩ | ⟨k, rfl, -⟩
  · omega
  · omega

/-- A placeholder is replaced as a whole. -/
theorem replaceEach_column {cs name rest : List Char} (hFound : placeholder? cs = some (name, rest))
    (text : List Char → List Char) : replaceEach text cs = text name ++ replaceEach text rest := by
  have hOccurs : OccursAt cs 0 name := occursAt_zero_iff.mpr ⟨rest, hFound⟩
  obtain rfl := source_of_placeholder? hFound
  rw [replaceEach_append (splitsAt_source hFound), length_source_column,
    List.range_succ_eq_map, List.flatMap_cons, List.flatMap_map]
  have hFirst : replacementAt text ((Piece.column name).source ++ rest) 0 = text name := by
    simp [replacementAt, nameAt?_eq_some_iff.mpr hOccurs]
  -- No placeholder begins at a later position of this one, and all of them are within it.
  have hLater : (List.range (name.length + 2)).flatMap (fun p =>
      replacementAt text ((Piece.column name).source ++ rest) (p + 1)) = [] := by
    rw [List.flatMap_eq_nil_iff]
    intro p hMem
    have hInside : p + 1 < 0 + (Piece.column name).source.length := by
      rw [length_source_column]
      have hLess := List.mem_range.mp hMem
      omega
    have hNone : nameAt? ((Piece.column name).source ++ rest) (p + 1) = none := by
      rw [Option.eq_none_iff_forall_ne_some]
      intro other hOther
      have hEnd := hOccurs.separate (nameAt?_eq_some_iff.mp hOther) (by omega)
      omega
    have hWithin : isWithin ((Piece.column name).source ++ rest) (p + 1) = true :=
      isWithin_eq_true_iff.mpr ⟨0, name, hOccurs, by omega, hInside⟩
    simp [replacementAt, hNone, hWithin]
  rw [hFirst, hLater, List.append_nil]

theorem replaceEach_congr {cs : List Char} {text text' : List Char → List Char}
    (h : ∀ p name, OccursAt cs p name → text name = text' name) :
    replaceEach text cs = replaceEach text' cs := by
  apply List.flatMap_congr
  intro p _
  unfold replacementAt
  cases hName : nameAt? cs p with
  | none => rfl
  | some name => exact h p name (nameAt?_eq_some_iff.mp hName)

/-! ## Fragments -/

/-- The text that replaces a placeholder for a column: the column is in the row, neither null nor
blank, and its text is trimmed and sanitised. -/
def IsFragment (row : Row) (column : String) (text : List Char) : Prop :=
  ∃ v, row.get? column = some v ∧ v ≠ .null ∧
    (∃ c ∈ v.display.toList, Text.isBlank c = false) ∧
      text = sanitizeChars (Text.trimChars v.display.toList)

/-- Why a placeholder for a column cannot be replaced. -/
inductive Refuses (row : Row) (column : String) : TemplateError → Prop
  | missing (hColumn : row.get? column = none) : Refuses row column (.columnNotFound column)
  | null (hColumn : row.get? column = some .null) : Refuses row column (.nullValue column)
  | blank {s : String} (hColumn : row.get? column = some (.text s))
      (hBlank : ∀ c ∈ s.toList, Text.isBlank c = true) : Refuses row column (.emptyValue column)

theorem fragment_of_isFragment {row : Row} {column : String} {text : List Char}
    (h : IsFragment row column text) : fragment row column = .ok text := by
  obtain ⟨v, hColumn, hNull, ⟨c, hMem, hVisible⟩, rfl⟩ := h
  have hTrim : Text.trimChars v.display.toList ≠ [] := by
    intro hNil
    have hBlank := Text.trimChars_eq_nil_iff.mp hNil c hMem
    simp [hVisible] at hBlank
  unfold fragment
  rw [hColumn]
  cases v with
  | null => exact absurd rfl hNull
  | text | int | float | bool =>
    dsimp only
    split
    case h_1 hNil => exact absurd hNil hTrim
    case h_2 => rfl

theorem fragment_of_refuses {row : Row} {column : String} {e : TemplateError}
    (h : Refuses row column e) : fragment row column = .error e := by
  unfold fragment
  cases h with
  | missing hColumn => rw [hColumn]
  | null hColumn => rw [hColumn]
  | @blank s hColumn hBlank =>
    have hTrim : Text.trimChars (Value.text s).display.toList = [] :=
      Text.trimChars_eq_nil_iff.mpr hBlank
    rw [hColumn]
    simp [hTrim]

/-- A placeholder can be replaced or not. -/
theorem isFragment_or_refuses (row : Row) (column : String) :
    (∃ text, IsFragment row column text) ∨ ∃ e, Refuses row column e := by
  cases hColumn : row.get? column with
  | none => exact .inr ⟨_, .missing hColumn⟩
  | some v =>
    by_cases hNull : v = .null
    · subst hNull
      exact .inr ⟨_, .null hColumn⟩
    · by_cases hVisible : ∃ c ∈ v.display.toList, Text.isBlank c = false
      · exact .inl ⟨_, v, hColumn, hNull, hVisible, rfl⟩
      · -- A value without a visible character is a text.
        have hText : ∃ s, v = .text s := by
          by_contra hOther
          exact hVisible (Value.exists_not_blank hNull fun s hSame => hOther ⟨s, hSame⟩)
        obtain ⟨s, rfl⟩ := hText
        refine .inr ⟨_, .blank hColumn ?_⟩
        simpa [Value.display] using hVisible

theorem fragment_eq_ok_iff {row : Row} {column : String} {text : List Char} :
    fragment row column = .ok text ↔ IsFragment row column text := by
  refine ⟨fun h => ?_, fragment_of_isFragment⟩
  rcases isFragment_or_refuses row column with ⟨other, hOther⟩ | ⟨e, hRefuses⟩
  · rw [fragment_of_isFragment hOther] at h
    cases h
    exact hOther
  · rw [fragment_of_refuses hRefuses] at h
    cases h

theorem fragment_eq_error_iff {row : Row} {column : String} {e : TemplateError} :
    fragment row column = .error e ↔ Refuses row column e := by
  refine ⟨fun h => ?_, fragment_of_refuses⟩
  rcases isFragment_or_refuses row column with ⟨text, hText⟩ | ⟨other, hRefuses⟩
  · rw [fragment_of_isFragment hText] at h
    cases h
  · rw [fragment_of_refuses hRefuses] at h
    cases h
    exact hRefuses

/-! ## Expansion -/

/-- A column that can be spliced in: it is in the row, neither null nor blank. -/
def IsVisible (row : Row) (column : String) : Prop :=
  ∃ v, row.get? column = some v ∧ v ≠ .null ∧ ∃ c ∈ v.display.toList, Text.isBlank c = false

theorem isVisible_iff {row : Row} {column : String} :
    IsVisible row column ↔ ∃ text, IsFragment row column text := by
  constructor
  · rintro ⟨v, hColumn, hNull, hVisible⟩
    exact ⟨_, v, hColumn, hNull, hVisible, rfl⟩
  · rintro ⟨_, v, hColumn, hNull, hVisible, -⟩
    exact ⟨v, hColumn, hNull, hVisible⟩

theorem Refuses.not_isVisible {row : Row} {column : String} {e : TemplateError}
    (h : Refuses row column e) : ¬ IsVisible row column := by
  intro hVisible
  obtain ⟨text, hText⟩ := isVisible_iff.mp hVisible
  have hBoth := fragment_of_isFragment hText
  rw [fragment_of_refuses h] at hBoth
  cases hBoth

/-- The leftmost placeholder that cannot be replaced, with the reason. -/
def IsFirstRefusal (row : Row) (cs : List Char) (e : TemplateError) : Prop :=
  ∃ p name, OccursAt cs p name ∧ Refuses row (String.ofList name) e ∧
    ∀ q other, q < p → OccursAt cs q other → IsVisible row (String.ofList other)

/-- The text that replaces a placeholder, and nothing where there is none. -/
def fragmentText (row : Row) (name : List Char) : List Char :=
  (fragment row (String.ofList name)).toOption.getD []

/-- The scan has replaced every occurrence. -/
theorem replaceEach_of_expandPieces {row : Row} {cs out : List Char}
    (h : expandPieces row (pieces cs) = .ok out) :
    (∀ p name, OccursAt cs p name → IsVisible row (String.ofList name)) ∧
      out = replaceEach (fragmentText row) cs := by
  fun_induction pieces cs generalizing out with
  | case1 cs name rest hFound ih =>
    obtain ⟨first, more, hFragment, hRest, rfl⟩ := expandPieces_cons_eq_ok_iff.mp h
    rw [Piece.expand] at hFragment
    obtain ⟨hVisible, rfl⟩ := ih hRest
    have hFirst : fragmentText row name = first := by
      simp [fragmentText, hFragment, Except.toOption]
    refine ⟨?_, by rw [replaceEach_column hFound, hFirst]⟩
    intro p other hOther
    rcases occursAt_of_placeholder?_eq_some hFound hOther with ⟨-, rfl⟩ | ⟨q, -, hLater⟩
    · exact isVisible_iff.mpr ⟨first, fragment_eq_ok_iff.mp hFragment⟩
    · exact hVisible q other hLater
  | case2 =>
    cases h
    refine ⟨fun p name hOccurs => ?_, rfl⟩
    obtain ⟨rest, hFound⟩ := occursAt_iff.mp hOccurs
    simp [placeholder?] at hFound
  | case3 c rest hNone ih =>
    obtain ⟨first, more, hChar, hRest, rfl⟩ := expandPieces_cons_eq_ok_iff.mp h
    obtain rfl : [c] = first := Except.ok.inj hChar
    obtain ⟨hVisible, rfl⟩ := ih hRest
    refine ⟨?_, by rw [replaceEach_cons hNone, List.singleton_append]⟩
    intro p name hOccurs
    obtain ⟨q, -, hLater⟩ := occursAt_of_placeholder?_eq_none hNone hOccurs
    exact hVisible q name hLater

/-- The scan stops at the leftmost occurrence that has no fragment. -/
theorem isFirstRefusal_of_expandPieces {row : Row} {cs : List Char} {e : TemplateError}
    (h : expandPieces row (pieces cs) = .error e) : IsFirstRefusal row cs e := by
  fun_induction pieces cs with
  | case1 cs name rest hFound ih =>
    rcases expandPieces_cons_eq_error_iff.mp h with hHere | ⟨first, hFragment, hRest⟩
    · exact ⟨0, name, occursAt_zero_iff.mpr ⟨rest, hFound⟩, fragment_eq_error_iff.mp hHere,
        fun q other hLess => absurd hLess (Nat.not_lt_zero q)⟩
    · obtain ⟨p, bad, hBad, hRefuses, hBefore⟩ := ih hRest
      obtain rfl := source_of_placeholder? hFound
      refine ⟨_, bad, (occursAt_append_iff _ rest p bad).mpr hBad, hRefuses, ?_⟩
      -- An occurrence further left is the first one, or it is one of the rest.
      intro q other hLess hOther
      rcases occursAt_of_placeholder?_eq_some hFound hOther with ⟨-, rfl⟩ | ⟨k, rfl, hLater⟩
      · exact isVisible_iff.mpr ⟨first, fragment_eq_ok_iff.mp hFragment⟩
      · exact hBefore k other (by omega) hLater
  | case2 => cases h
  | case3 c rest hNone ih =>
    rcases expandPieces_cons_eq_error_iff.mp h with hHere | ⟨first, hChar, hRest⟩
    · cases hHere
    · obtain ⟨p, bad, hBad, hRefuses, hBefore⟩ := ih hRest
      refine ⟨_, bad, (occursAt_append_iff [c] rest p bad).mpr hBad, hRefuses, ?_⟩
      intro q other hLess hOther
      obtain ⟨k, rfl, hLater⟩ := occursAt_of_placeholder?_eq_none hNone hOther
      rw [List.length_singleton] at hLess
      exact hBefore k other (by omega) hLater

/-- There is at most one leftmost refusal. -/
theorem IsFirstRefusal.eq {row : Row} {cs : List Char} {e e' : TemplateError}
    (h : IsFirstRefusal row cs e) (h' : IsFirstRefusal row cs e') : e = e' := by
  obtain ⟨p, name, hOccurs, hRefuses, hBefore⟩ := h
  obtain ⟨p', name', hOccurs', hRefuses', hBefore'⟩ := h'
  rcases Nat.lt_trichotomy p p' with hLess | rfl | hMore
  · exact absurd (hBefore' p name hLess hOccurs) hRefuses.not_isVisible
  · obtain rfl := hOccurs.name_eq hOccurs'
    have hSame := fragment_of_refuses hRefuses
    rw [fragment_of_refuses hRefuses'] at hSame
    cases hSame
    rfl
  · exact absurd (hBefore p' name' hMore hOccurs') hRefuses'.not_isVisible

theorem expand_eq_ok_iff {template key : String} {row : Row} :
    expand template row = .ok key ↔
      (∀ p name, OccursAt template.toList p name → IsVisible row (String.ofList name)) ∧
        key.toList = replaceEach (fragmentText row) template.toList := by
  unfold expand
  cases hScan : expandPieces row (pieces template.toList) with
  | ok out =>
    obtain ⟨hVisible, hOut⟩ := replaceEach_of_expandPieces hScan
    simp only [Except.map, Except.ok.injEq, ← hOut]
    constructor
    · rintro rfl
      exact ⟨hVisible, String.toList_ofList⟩
    · rintro ⟨-, rfl⟩
      exact String.ofList_toList
  | error e =>
    simp only [Except.map, reduceCtorEq, false_iff]
    rintro ⟨hVisible, -⟩
    obtain ⟨p, name, hOccurs, hRefuses, -⟩ := isFirstRefusal_of_expandPieces hScan
    exact hRefuses.not_isVisible (hVisible p name hOccurs)

theorem expand_eq_error_iff {template : String} {row : Row} {e : TemplateError} :
    expand template row = .error e ↔ IsFirstRefusal row template.toList e := by
  unfold expand
  cases hScan : expandPieces row (pieces template.toList) with
  | ok out =>
    simp only [Except.map, reduceCtorEq, false_iff]
    rintro ⟨p, name, hOccurs, hRefuses, -⟩
    obtain ⟨hVisible, -⟩ := replaceEach_of_expandPieces hScan
    exact hRefuses.not_isVisible (hVisible p name hOccurs)
  | error e' =>
    have hFirst := isFirstRefusal_of_expandPieces hScan
    simp only [Except.map, Except.error.injEq]
    exact ⟨fun hSame => hSame ▸ hFirst, fun h => hFirst.eq h⟩

/-- **An expansion replaces exactly the placeholders.**  For every template and row:
1. placeholders do not overlap, wherever they stand;
2. the template expands to a key if and only if every placeholder has a fragment, and the key is
   then the template with every placeholder replaced by its fragment, position by position;
3. it expands at all if and only if the column of every placeholder is in the row, not null and not
   rendered to white space alone;
4. it fails with an error if and only if this is the error of the leftmost placeholder that cannot
   be replaced, and the error names its column; a value that is blank is a text. -/
theorem expand_replaces_placeholders (template : String) (row : Row) :
    (∀ p q name other, OccursAt template.toList p name → OccursAt template.toList q other →
      p < q → p + (Piece.column name).source.length ≤ q) ∧
    (∀ key, expand template row = .ok key ↔ ∃ text,
      (∀ p name, OccursAt template.toList p name →
        IsFragment row (String.ofList name) (text name)) ∧
          key.toList = replaceEach text template.toList) ∧
    ((∃ key, expand template row = .ok key) ↔
      ∀ p name, OccursAt template.toList p name → IsVisible row (String.ofList name)) ∧
    ∀ e, expand template row = .error e ↔ IsFirstRefusal row template.toList e := by
  refine ⟨?separate, ?key, ?visible, ?refusal⟩
  case separate =>
    intro p q name other h h' hLess
    exact h.separate h' hLess
  case key =>
    intro key
    rw [expand_eq_ok_iff]
    constructor
    · rintro ⟨hVisible, hKey⟩
      refine ⟨fragmentText row, fun p name hOccurs => ?_, hKey⟩
      obtain ⟨text, hText⟩ := isVisible_iff.mp (hVisible p name hOccurs)
      simpa [fragmentText, fragment_of_isFragment hText, Except.toOption] using hText
    · rintro ⟨text, hText, hKey⟩
      refine ⟨fun p name hOccurs => isVisible_iff.mpr ⟨_, hText p name hOccurs⟩, ?_⟩
      rw [hKey]
      apply replaceEach_congr
      intro p name hOccurs
      simp [fragmentText, fragment_of_isFragment (hText p name hOccurs), Except.toOption]
  case visible =>
    constructor
    · rintro ⟨key, hKey⟩
      exact (expand_eq_ok_iff.mp hKey).1
    · intro hVisible
      exact ⟨_, expand_eq_ok_iff.mpr ⟨hVisible, String.toList_ofList⟩⟩
  case refusal =>
    intro e
    exact expand_eq_error_iff

/-- A placeholder behind a hash sign and one inside what is no placeholder are replaced, and what
comes in is not looked at again.  With the second column null, its error is that of the template. -/
theorem expand_replaces_placeholders_nested :
    let template := "##\x7ba\x7d#\x7b#\x7bb\x7d\x7d"
    let row : Row := KeyMap.ofList [("a", .int 7), ("b", .text "c")]
    let poor : Row := KeyMap.ofList [("a", .int 7), ("b", .null)]
    (expand template row = .ok "#7#\x7bc\x7d" ∧
      ∃ text, text ['a'] = ['7'] ∧ text ['b'] = ['c'] ∧
        "#7#\x7bc\x7d".toList = replaceEach text template.toList) ∧
      1 + (Piece.column ['a']).source.length ≤ 7 ∧
        expand template poor = .error (.nullValue "b") ∧
          IsFirstRefusal poor template.toList (.nullValue "b") := by
  intro template row poor
  have hFirst : OccursAt template.toList 1 ['a'] := nameAt?_eq_some_iff.mp (by decide)
  have hSecond : OccursAt template.toList 7 ['b'] := nameAt?_eq_some_iff.mp (by decide)
  have hKey : expand template row = .ok "#7#\x7bc\x7d" := by cbv
  have hError : expand template poor = .error (.nullValue "b") := by cbv
  obtain ⟨hSeparate, hReplace, -, -⟩ := expand_replaces_placeholders template row
  obtain ⟨-, -, -, hRefuse⟩ := expand_replaces_placeholders template poor
  obtain ⟨text, hText, hOut⟩ := (hReplace _).mp hKey
  refine ⟨⟨hKey, text, ?_, ?_, hOut⟩, hSeparate 1 7 _ _ hFirst hSecond (by decide), hError,
    (hRefuse _).mp hError⟩
  · have hFragment := fragment_of_isFragment (hText 1 _ hFirst)
    have hSeven : fragment row (String.ofList ['a']) = .ok ['7'] := by cbv
    rw [hSeven] at hFragment
    exact (Except.ok.inj hFragment).symm
  · have hFragment := fragment_of_isFragment (hText 7 _ hSecond)
    have hC : fragment row (String.ofList ['b']) = .ok ['c'] := by cbv
    rw [hC] at hFragment
    exact (Except.ok.inj hFragment).symm

end Template

end SqlMetrics
