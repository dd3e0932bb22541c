import SqlMetrics.Proofs.Url.Percent

/-!
# Segments that are added to a path

A name that is added to the path of a URL becomes one segment, which says the name and which no
reader of the path takes for anything else, unless the name is a dot segment or has characters that
are dropped.

- **Front**: `Leads` says which segments of a path the added ones come after.
- **Names**: `IsName`, and `pushSegment_of_isName` for what becomes of one.
- **Reading**: `StandsAlone`, and `standsAlone_escape` for the segments that names become.
-/

namespace SqlMetrics.Url

/-! ## The front of a path -/

/-- The segments of a path, and those of them that added ones come after. -/
inductive Leads : List String → List String → Prop
  | whole {segments : List String} (h : segments.getLast? ≠ some "") : Leads segments segments
  /-- An empty last segment is taken away. -/
  | trimmed {front : List String} (h : front ≠ [""]) : Leads (front ++ [""]) front
  /-- What is left of two empty segments is the root, which has none. -/
  | root : Leads ["", ""] []

theorem openSegments_of_ne {segments : List String} (h : segments ≠ [""]) :
    openSegments segments = segments := by
  simp [openSegments, h]

theorem leads_openSegments_trimSegments (segments : List String) :
    Leads segments (openSegments (trimSegments segments)) := by
  rcases List.eq_nil_or_concat segments with rfl | ⟨front, last, rfl⟩
  · exact .whole (by simp)
  · by_cases hLast : last = ""
    · subst hLast
      by_cases hRoot : front = [""]
      · subst hRoot
        exact .root
      · have hFront : openSegments (trimSegments (front ++ [""])) = front := by
          by_cases hNone : front = []
          · subst hNone
            rfl
          · have hLong : ¬(front ++ [""]).length ≤ 1 := by
              simpa using hNone
            rw [trimSegments, if_neg hLong, if_pos (by simp), List.dropLast_concat,
              openSegments_of_ne hRoot]
        rw [List.concat_eq_append, hFront]
        exact .trimmed hRoot
    · have hWhole : openSegments (trimSegments (front ++ [last])) = front ++ [last] := by
        have hTrim : trimSegments (front ++ [last]) = front ++ [last] := by
          simp [trimSegments, hLast]
        rw [hTrim, openSegments_of_ne]
        simp [List.append_eq_cons_iff, hLast]
      rw [List.concat_eq_append, hWhole]
      exact .whole (by simp [hLast])

/-! ## Names -/

/-- A name that a path takes as it is: no dot segment, and none of the characters that
are dropped. -/
def IsName (name : String) : Prop :=
  name ≠ "." ∧ name ≠ ".." ∧ ∀ c ∈ name.toList, isDropped c = false

/-- What is left of a name without the characters that are dropped. -/
def kept (name : String) : List Char :=
  name.toList.filter fun c => !isDropped c

theorem kept_of_isName {name : String} (h : IsName name) : kept name = name.toList :=
  List.filter_eq_self.mpr fun c hMem => by simp [h.2.2 c hMem]

theorem pushSegment_of_kept {escapes : EscapeSet} {segments : List String} {name : String}
    (hDot : name ≠ ".") (hDots : name ≠ "..") (hKeptDot : kept name ≠ ['.'])
    (hKeptDots : kept name ≠ ['.', '.']) :
    pushSegment escapes segments name =
      openSegments segments ++ [String.ofList (escape escapes (kept name))] := by
  rw [pushSegment, if_neg (by simp [hDot, hDots])]
  rw [kept] at hKeptDot hKeptDots ⊢
  split
  · rename_i hSame
    exact absurd hSame hKeptDot
  · rename_i hSame
    exact absurd hSame hKeptDots
  · rfl

theorem pushSegment_of_isName {escapes : EscapeSet} {segments : List String} {name : String}
    (h : IsName name) :
    pushSegment escapes segments name =
      openSegments segments ++ [String.ofList (escape escapes name.toList)] := by
  have hKept := kept_of_isName h
  have hNot {cs : List Char} (hOther : name ≠ String.ofList cs) : kept name ≠ cs := by
    rw [hKept]
    rintro rfl
    exact hOther String.ofList_toList.symm
  rw [← hKept]
  exact pushSegment_of_kept h.1 h.2.1 (hNot h.1) (hNot h.2.1)

/-! ## Reading -/

/-- A segment that is found in a path as it is written, wherever it comes after others. -/
def StandsAlone (special isFile : Bool) (e : String) : Prop :=
  ∀ before rest, before ≠ [] →
    readSegments special isFile before [] (e.toList ++ '/' :: rest) =
      readSegments special isFile (before ++ [e]) [] rest

/-- Characters that end no segment are gathered. -/
theorem readSegments_append {special isFile : Bool} {cs : List Char}
    (h : ∀ c ∈ cs, isSlash special c = false ∧ endsPath c = false) (before : List String)
    (current rest : List Char) :
    readSegments special isFile before current (cs ++ rest) =
      readSegments special isFile before (current ++ cs) rest := by
  induction cs generalizing current with
  | nil => simp
  | cons c cs ih =>
    obtain ⟨⟨hSlash, hEnd⟩, hRest⟩ := List.forall_mem_cons.mp h
    rw [List.cons_append, readSegments, hEnd, hSlash]
    simp only [Bool.false_eq_true, if_false]
    rw [ih hRest, List.append_assoc, List.singleton_append]

theorem standsAlone_of_plain {special isFile : Bool} {e : String}
    (hChars : ∀ c ∈ e.toList, isSlash special c = false ∧ endsPath c = false)
    (hEscaped : escape .path e.toList = e.toList) (hDot : dotCount? e.toList ≠ some 1)
    (hDots : dotCount? e.toList ≠ some 2) : StandsAlone special isFile e := by
  intro before rest hBefore
  have hKept : keptSegment isFile before e.toList = e.toList := by
    unfold keptSegment
    split <;> simp [hBefore]
  have hEnd : endSegment isFile before e.toList true = before ++ [e] := by
    rw [endSegment, hEscaped]
    split
    · rename_i hOne
      exact absurd hOne hDot
    · rename_i hTwo
      exact absurd hTwo hDots
    · rw [hKept, String.ofList_toList]
  rw [readSegments_append hChars, List.nil_append, readSegments, hEnd]
  simp [endsPath, isSlash]

/-- The characters that a segment of a URL escapes. -/
def segmentSet (special : Bool) : EscapeSet :=
  if special then .specialSegment else .segment

theorem segmentSet_percent (special : Bool) : (segmentSet special).escapes '%' = true := by
  cases special <;> rfl

/-- What a segment leaves unescaped, a path leaves unescaped as well, and it ends nothing. -/
theorem plain_of_not_escapes {special : Bool} {c : Char}
    (h : (segmentSet special).escapes c = false) :
    EscapeSet.path.escapes c = false ∧ isSlash special c = false ∧ endsPath c = false := by
  cases special <;>
    simp [segmentSet, EscapeSet.escapes, EscapeSet.specialSegment, EscapeSet.segment,
      EscapeSet.path, EscapeSet.fragment, isSlash, endsPath] at h ⊢ <;> grind

theorem plain_hexDigit {special : Bool} {n : Nat} (h : n < 16) :
    EscapeSet.path.escapes (hexDigit n) = false ∧ isSlash special (hexDigit n) = false ∧
      endsPath (hexDigit n) = false := by
  cases special <;> interval_cases n <;> decide

/-- **The segment that a name becomes stands alone.** -/
theorem standsAlone_escape {special isFile : Bool} {cs : List Char} (hDot : cs ≠ ['.'])
    (hDots : cs ≠ ['.', '.']) :
    StandsAlone special isFile (String.ofList (escape (segmentSet special) cs)) := by
  have hPlain : ∀ c ∈ escape (segmentSet special) cs, EscapeSet.path.escapes c = false ∧
      isSlash special c = false ∧ endsPath c = false := by
    intro c hMem
    rcases mem_escape hMem with ⟨-, hUnescaped⟩ | rfl | ⟨n, hDigit, rfl⟩
    · exact plain_of_not_escapes hUnescaped
    · cases special <;> decide
    · exact plain_hexDigit hDigit
  have hCount {n : Nat} (h : dotCount? (escape (segmentSet special) cs) = some n) :
      cs = List.replicate n '.' :=
    eq_replicate_of_dotCount?_escape (segmentSet_percent special) h
  refine standsAlone_of_plain ?_ ?_ ?_ ?_ <;> rw [String.toList_ofList]
  · exact fun c hMem => (hPlain c hMem).2
  · exact escape_eq_self fun c hMem => (hPlain c hMem).1
  · exact fun hOne => hDot (hCount hOne)
  · exact fun hTwo => hDots (hCount hTwo)

end SqlMetrics.Url
