import Mathlib
import SqlMetrics.Text.Blank

/-!
# Trimmed text

`Text.trim` is given as a walk from either end.  `IsTrim` says without a walk what is left of a text,
and `isTrim_iff` that this is what the walk leaves.
-/

namespace SqlMetrics.Text

/-- A text without the white space around another one: only white space is cut off, and there is
none at either end of what is left. -/
structure IsTrim (s t : String) : Prop where
  cut : ∃ front back, s.toList = front ++ (t.toList ++ back) ∧
    (∀ c ∈ front, isBlank c = true) ∧ ∀ c ∈ back, isBlank c = true
  first : ∀ c, t.toList.head? = some c → isBlank c = false
  last : ∀ c, t.toList.getLast? = some c → isBlank c = false

theorem dropWhile_isBlank_of_head? {cs : List Char}
    (h : ∀ c, cs.head? = some c → isBlank c = false) : cs.dropWhile isBlank = cs := by
  cases cs with
  | nil => rfl
  | cons c rest => exact List.dropWhile_cons_of_neg (by simp [h c rfl])

theorem rdropWhile_isBlank_of_getLast? {cs : List Char}
    (h : ∀ c, cs.getLast? = some c → isBlank c = false) : cs.rdropWhile isBlank = cs := by
  rw [List.rdropWhile, dropWhile_isBlank_of_head?, List.reverse_reverse]
  intro c hHead
  exact h c (by rwa [List.head?_reverse] at hHead)

theorem head?_dropWhile_isBlank {cs : List Char} {c : Char}
    (h : (cs.dropWhile isBlank).head? = some c) : isBlank c = false := by
  simpa [h] using List.head?_dropWhile_not isBlank cs

theorem IsTrim.eq {s t : String} (h : IsTrim s t) : t = trim s := by
  obtain ⟨⟨front, back, hCut, hFront, hBack⟩, hFirst, hLast⟩ := h
  have hTrim : trimChars s.toList = t.toList := by
    change (s.toList.dropWhile isBlank).rdropWhile isBlank = _
    rw [hCut, List.dropWhile_append_of_pos hFront]
    cases hText : t.toList with
    | nil =>
      -- Nothing is left but the white space at the end.
      rw [List.nil_append, List.dropWhile_eq_nil_iff.mpr hBack, List.rdropWhile_nil]
    | cons c rest =>
      rw [dropWhile_isBlank_of_head? (by simpa [hText] using hFirst), List.rdropWhile,
        List.reverse_append, List.dropWhile_append_of_pos (by simpa using hBack), ← hText]
      exact rdropWhile_isBlank_of_getLast? hLast
  rw [trim, hTrim, String.ofList_toList]

theorem isTrim_trim (s : String) : IsTrim s (trim s) := by
  have hText : (trim s).toList = (s.toList.dropWhile isBlank).rdropWhile isBlank :=
    String.toList_ofList
  refine ⟨⟨s.toList.takeWhile isBlank, (s.toList.dropWhile isBlank).rtakeWhile isBlank, ?cut,
    ?front, ?back⟩, ?first, ?last⟩
  case cut => rw [hText, List.rdropWhile_append_rtakeWhile, List.takeWhile_append_dropWhile]
  case front => exact fun c hMem => List.mem_takeWhile_imp hMem
  case back => exact fun c hMem => List.mem_rtakeWhile_imp hMem
  case first =>
    intro c hHead
    -- What is left begins as the text without the white space in front of it does.
    obtain ⟨back, hBack⟩ := List.rdropWhile_prefix isBlank (s.toList.dropWhile isBlank)
    rw [← hText] at hBack
    have hFirst : (s.toList.dropWhile isBlank).head? = some c := by simp [← hBack, hHead]
    exact head?_dropWhile_isBlank hFirst
  case last =>
    intro c hLast
    rw [hText] at hLast
    have hNe : (s.toList.dropWhile isBlank).rdropWhile isBlank ≠ [] := by
      rintro hNil
      simp [hNil] at hLast
    have hNot := List.rdropWhile_last_not isBlank _ hNe
    rw [List.getLast?_eq_some_getLast hNe] at hLast
    obtain rfl := Option.some.inj hLast
    simpa using hNot

/-- There is one way to trim a text. -/
theorem isTrim_iff {s t : String} : IsTrim s t ↔ t = trim s := by
  constructor
  · exact IsTrim.eq
  · rintro rfl
    exact isTrim_trim s

end SqlMetrics.Text
