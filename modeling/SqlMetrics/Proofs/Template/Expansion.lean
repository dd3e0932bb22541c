import Mathlib.Data.List.Forall2
import SqlMetrics.Template

/-!
# What an expansion brings into a key

An expansion keeps the text of a template around its placeholders and fills in each placeholder.
What it fills in is never empty and holds key characters only, whatever the row holds.

- **Pieces**: a template is its pieces, one after another, and `literal` is the part of it that
  stands for itself.
- **Fillings**: `Piece.Fills` says what a piece may be replaced by, and every expansion is made of
  such replacements.
- **Other characters**: an expansion has the same characters outside `[-a-zA-Z0-9_]` as the literal
  text of its template, in the same order.
-/

namespace SqlMetrics.Template

/-! ## Pieces -/

/-- The text of a piece in its template. -/
def Piece.source : Piece → List Char
  | .char c => [c]
  | .column name => '#' :: '\x7b' :: (name ++ ['\x7d'])

/-- The character of a piece that stands for itself. -/
def Piece.literal? : Piece → Option Char
  | .char c => some c
  | .column _ => none

/-- The text of a template outside its placeholders. -/
def literal (template : String) : List Char :=
  (pieces template.toList).filterMap Piece.literal?

theorem source_of_placeholder? {cs name rest : List Char}
    (h : placeholder? cs = some (name, rest)) : cs = (Piece.column name).source ++ rest := by
  unfold placeholder? at h
  split at h
  case h_1 tail =>
    split at h
    case h_1 after hAfter =>
      dsimp only at h
      split at h
      · cases h
      · cases h
        -- The name ends at the first character that no name has, and this is the closing brace.
        have hTail := List.takeWhile_append_dropWhile (p := isNameChar) (l := tail)
        rw [hAfter] at hTail
        simp [Piece.source, hTail]
    case h_2 => cases h
  case h_2 => cases h

/-- A template is its pieces, one after another. -/
theorem source_pieces (cs : List Char) : (pieces cs).flatMap Piece.source = cs := by
  fun_induction pieces cs with
  | case1 cs name rest hFound ih =>
    rw [List.flatMap_cons, ih]
    exact (source_of_placeholder? hFound).symm
  | case2 => rfl
  | case3 c rest hNone ih => rw [List.flatMap_cons, ih, Piece.source, List.singleton_append]

/-! ## Fillings -/

/-- What a piece may be replaced by: a character by itself, and a placeholder by one or more key
characters. -/
inductive Piece.Fills : Piece → List Char → Prop
  | char (c : Char) : Fills (.char c) [c]
  | column (name : List Char) {text : List Char} : text ≠ [] →
      (∀ c ∈ text, isKeyChar c = true) → Fills (.column name) text

theorem isKeyChar_of_mem_sanitizeChars {cs : List Char} {c : Char} (h : c ∈ sanitizeChars cs) :
    isKeyChar c = true := by
  obtain ⟨other, -, rfl⟩ := List.mem_map.mp h
  by_cases hKey : isKeyChar other = true
  · rw [if_pos hKey]
    exact hKey
  · rw [if_neg hKey]
    rfl

/-- What replaces a placeholder is sanitised text that was not blank. -/
theorem fills_of_fragment {row : Row} {name : List Char} {text : List Char}
    (h : fragment row (String.ofList name) = .ok text) : (Piece.column name).Fills text := by
  rw [fragment] at h
  split at h
  case h_1 => cases h
  case h_2 => cases h
  case h_3 value _ =>
    split at h
    case h_1 => cases h
    case h_2 trimmed hNe =>
      -- Sanitising keeps the length, so what was not blank is not empty.
      cases h
      refine .column name ?_ fun c hMem => isKeyChar_of_mem_sanitizeChars hMem
      intro hEmpty
      exact hNe (List.map_eq_nil_iff.mp hEmpty)

theorem Piece.fills_of_expand {row : Row} {piece : Piece} {text : List Char}
    (h : piece.expand row = .ok text) : piece.Fills text := by
  cases piece with
  | char c =>
    cases h
    exact .char c
  | column name => exact fills_of_fragment h

theorem expandPieces_cons_eq_ok_iff {row : Row} {piece : Piece} {rest : List Piece}
    {text : List Char} :
    expandPieces row (piece :: rest) = .ok text ↔ ∃ first more,
      piece.expand row = .ok first ∧ expandPieces row rest = .ok more ∧ text = first ++ more := by
  rw [expandPieces]
  cases piece.expand row with
  | error e => simp
  | ok first =>
    cases expandPieces row rest with
    | error e => simp [Except.map]
    | ok more => simp [Except.map, eq_comm]

theorem expandPieces_cons_eq_error_iff {row : Row} {piece : Piece} {rest : List Piece}
    {e : TemplateError} :
    expandPieces row (piece :: rest) = .error e ↔ piece.expand row = .error e ∨
      ∃ first, piece.expand row = .ok first ∧ expandPieces row rest = .error e := by
  rw [expandPieces]
  cases piece.expand row with
  | error e => simp
  | ok first =>
    cases expandPieces row rest with
    | error e => simp [Except.map]
    | ok more => simp [Except.map]

/-- Pieces expand to what fills them, one after another. -/
theorem exists_fragments {row : Row} {ps : List Piece} {text : List Char}
    (h : expandPieces row ps = .ok text) :
    ∃ fragments, List.Forall₂ Piece.Fills ps fragments ∧ text = fragments.flatten := by
  induction ps generalizing text with
  | nil =>
    cases h
    exact ⟨[], .nil, rfl⟩
  | cons piece rest ih =>
    obtain ⟨first, more, hPiece, hRest, rfl⟩ := expandPieces_cons_eq_ok_iff.mp h
    obtain ⟨fragments, hFills, rfl⟩ := ih hRest
    exact ⟨first :: fragments, .cons (Piece.fills_of_expand hPiece) hFills, rfl⟩

/-- **A template expands to its own text with each placeholder filled in.** -/
theorem exists_fragments_of_expand {template key : String} {row : Row}
    (h : expand template row = .ok key) :
    ∃ fragments, List.Forall₂ Piece.Fills (pieces template.toList) fragments ∧
      key.toList = fragments.flatten := by
  rw [expand] at h
  cases hPieces : expandPieces row (pieces template.toList) with
  | error e => simp [hPieces, Except.map] at h
  | ok text =>
    obtain ⟨fragments, hFills, rfl⟩ := exists_fragments hPieces
    rw [hPieces] at h
    cases h
    exact ⟨fragments, hFills, String.toList_ofList⟩

/-! ## Other characters -/

/-- The characters outside `[-a-zA-Z0-9_]`, in their order. -/
def otherChars (cs : List Char) : List Char :=
  cs.filter fun c => !isKeyChar c

theorem otherChars_append (cs ds : List Char) :
    otherChars (cs ++ ds) = otherChars cs ++ otherChars ds :=
  List.filter_append ..

/-- Fillings have the other characters of the literal text between the placeholders. -/
theorem otherChars_of_fills {ps : List Piece} {fragments : List (List Char)}
    (h : List.Forall₂ Piece.Fills ps fragments) :
    otherChars fragments.flatten = otherChars (ps.filterMap Piece.literal?) := by
  induction h with
  | nil => rfl
  | @cons piece text _ _ hFills _ ih =>
    rw [List.flatten_cons, otherChars_append, ih, List.filterMap_cons]
    cases hFills with
    | char c => exact (otherChars_append [c] _).symm
    | column name hNe hKey =>
      -- A filling is key characters throughout.
      have hNone : otherChars text = [] :=
        List.filter_eq_nil_iff.mpr fun c hMem => by simp [hKey c hMem]
      rw [hNone, List.nil_append]
      rfl

/-- Lists with the same other characters have each of them equally often. -/
theorem count_eq_of_otherChars {cs ds : List Char} (h : otherChars cs = otherChars ds) {c : Char}
    (hOther : isKeyChar c = false) : cs.count c = ds.count c := by
  have hCount (l : List Char) : (otherChars l).count c = l.count c :=
    List.count_filter (by simp [hOther])
  rw [← hCount cs, ← hCount ds, h]

end SqlMetrics.Template
