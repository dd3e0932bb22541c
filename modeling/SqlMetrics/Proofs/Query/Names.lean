import SqlMetrics.Proofs.Query.Extraction
import SqlMetrics.Proofs.Template.Expansion
import SqlMetrics.Proofs.Export.Stdout

/-!
# Names keep the shape of their templates

What a row holds comes into a name through placeholders only, and a placeholder brings in key
characters only.  So everything else in a name, and with it the levels of the name and the lines of
the output, is fixed by the query.

- **Names**: `KeepsShape` says what a name shares with its template.
- **Parts**: two names of one template have equally many parts between their dots.
- **Lines**: a query without tabs and line feeds gives names without them.
-/

namespace SqlMetrics.Query

open Template (Piece isKeyChar literal otherChars pieces)

/-! ## Names -/

/-- What stands before every key: nothing, or the prefix and a dot. -/
def namePrefix (q : Query) : String :=
  match q.keyPrefix with
  | none => ""
  | some "" => ""
  | some text => text ++ "."

theorem Describes.name_eq {q : Query} {now : Int64} {c : Candidate} {key : String} {p : MetricPoint}
    (h : q.Describes now c key p) : p.name = q.namePrefix ++ key := by
  rw [namePrefix]
  split
  case h_1 hNone => rw [h.name_plain (.inl hNone), String.empty_append]
  case h_2 hEmpty => rw [h.name_plain (.inr hEmpty), String.empty_append]
  case h_3 text hNe hText =>
    exact h.name_prefixed text hText hNe

/-- What a name shares with the query and the template that it comes from. -/
structure KeepsShape (q : Query) (template name : String) : Prop where
  /-- The name is the prefix and the pieces of the template, each character by itself and each
  placeholder filled in with one or more key characters. -/
  filled : ∃ fragments, List.Forall₂ Piece.Fills (pieces template.toList) fragments ∧
    name.toList = q.namePrefix.toList ++ fragments.flatten
  /-- All other characters are those of the prefix and the literal text, in their order. -/
  others : otherChars name.toList = otherChars (q.namePrefix.toList ++ literal template)
  /-- Each other character stands in the name as often as there. -/
  counts : ∀ ch, isKeyChar ch = false →
    name.toList.count ch = (q.namePrefix.toList ++ literal template).count ch

/-- The name of a described point keeps the shape of its template. -/
theorem Describes.keepsShape {q : Query} {now : Int64} {c : Candidate} {key : String}
    {p : MetricPoint} (h : q.Describes now c key p) : q.KeepsShape c.template p.name := by
  obtain ⟨fragments, hFills, hKey⟩ := Template.exists_fragments_of_expand h.expands
  have hName : p.name.toList = q.namePrefix.toList ++ fragments.flatten := by
    rw [h.name_eq, String.toList_append, hKey]
  -- The fillings bring key characters only, so all others are those of the literal text.
  have hOthers : otherChars p.name.toList =
      otherChars (q.namePrefix.toList ++ literal c.template) := by
    rw [hName, Template.otherChars_append, Template.otherChars_append,
      Template.otherChars_of_fills hFills, literal]
  exact {
    filled := ⟨fragments, hFills, hName⟩
    others := hOthers
    counts := fun ch hOther => Template.count_eq_of_otherChars hOthers hOther }

/-- The names of an extraction keep the shapes of the templates of their pairs. -/
theorem forall₂_keepsShape {q : Query} {rows : List Row} {now : Int64} {points : List MetricPoint}
    (h : (q.extract rows now).result = .ok points) :
    List.Forall₂ (fun c p => q.KeepsShape c.template p.name)
      ((q.candidates rows).filter (q.Emits ·)) points :=
  (forall₂_emitting h).imp fun _ _ ⟨_, hDescribes⟩ => hDescribes.keepsShape

/-! ## Parts -/

theorem length_splitOn (cs : List Char) (separator : Char) :
    (cs.splitOn separator).length = cs.count separator + 1 := by
  induction cs with
  | nil => rfl
  | cons c rest ih =>
    rw [List.splitOn_cons_eq_if_modifyHead, List.count_cons]
    by_cases hSame : c = separator
    · simp [hSame, ih]
    · simp [hSame, ih]

/-- Two names of one template have equally many parts between their dots. -/
theorem KeepsShape.length_parts {q : Query} {template name other : String}
    (h : q.KeepsShape template name) (hOther : q.KeepsShape template other) :
    (name.toList.splitOn '.').length = (other.toList.splitOn '.').length := by
  rw [length_splitOn, length_splitOn, h.counts '.' (by decide), hOther.counts '.' (by decide)]

/-! ## Lines -/

/-- A query whose prefix and templates hold no tab and no line feed. -/
structure Plain (q : Query) : Prop where
  keyPrefix : ∀ text, q.keyPrefix = some text → Stdout.Plain text.toList
  templates : ∀ entry ∈ q.valueKey.toList, Stdout.Plain entry.1.toList

theorem mem_of_mem_literal {template : String} {ch : Char} (h : ch ∈ literal template) :
    ch ∈ template.toList := by
  obtain ⟨piece, hPiece, hLiteral⟩ := List.mem_filterMap.mp h
  rw [← Template.source_pieces template.toList, List.mem_flatMap]
  refine ⟨piece, hPiece, ?_⟩
  cases piece with
  | char c =>
    cases hLiteral
    exact List.mem_singleton_self _
  | column name => cases hLiteral

/-- What stands before the keys of a plain query is plain. -/
theorem Plain.plain_namePrefix {q : Query} (h : q.Plain) : Stdout.Plain q.namePrefix.toList := by
  rw [namePrefix]
  split
  case h_1 => exact ⟨by simp, by simp⟩
  case h_2 => exact ⟨by simp, by simp⟩
  case h_3 text _ hText =>
    obtain ⟨hTab, hFeed⟩ := h.keyPrefix text hText
    constructor
    · simp [hTab]
    · simp [hFeed]

/-- A name that keeps the shape of a plain template of a plain query is plain. -/
theorem KeepsShape.plain {q : Query} {template name : String} (h : q.KeepsShape template name)
    (hQuery : q.Plain) (hTemplate : Stdout.Plain template.toList) : Stdout.Plain name.toList := by
  have hPrefix := hQuery.plain_namePrefix
  -- A tab or a line feed of the name would have to stand in the prefix or in the template.
  have hAbsent (ch : Char) (hOther : isKeyChar ch = false) (hInPrefix : ch ∉ q.namePrefix.toList)
      (hInTemplate : ch ∉ template.toList) : ch ∉ name.toList := by
    rw [← List.count_eq_zero, h.counts ch hOther, List.count_eq_zero, List.mem_append]
    rintro (hMem | hMem)
    · exact hInPrefix hMem
    · exact hInTemplate (mem_of_mem_literal hMem)
  exact ⟨hAbsent '\t' (by decide) hPrefix.1 hTemplate.1,
    hAbsent '\n' (by decide) hPrefix.2 hTemplate.2⟩

theorem exists_entry_of_mem_candidates {q : Query} {rows : List Row} {c : Candidate}
    (h : c ∈ q.candidates rows) : ∃ entry ∈ q.valueKey.toList, entry.1 = c.template := by
  obtain ⟨row, -, hRow⟩ := List.mem_flatMap.mp h
  obtain ⟨entry, hEntry, rfl⟩ := List.mem_map.mp hRow
  exact ⟨entry, hEntry, rfl⟩

/-- The names of a plain query are plain. -/
theorem Plain.plain_names {q : Query} (hQuery : q.Plain) {rows : List Row} {now : Int64}
    {points : List MetricPoint} (h : (q.extract rows now).result = .ok points) :
    ∀ p ∈ points, Stdout.Plain p.name.toList := by
  intro p hMem
  obtain ⟨c, hPair, hShape⟩ := exists_of_mem_right (forall₂_keepsShape h) hMem
  obtain ⟨entry, hEntry, hTemplate⟩ :=
    exists_entry_of_mem_candidates (List.mem_of_mem_filter hPair)
  exact hShape.plain hQuery (hTemplate ▸ hQuery.templates entry hEntry)

/-! ## The shape of names and lines -/

/-- **What a row holds changes neither the structure of a name nor that of the output.**
1. A template is its pieces, characters and placeholders, one after another.
2. Every name that an extraction gives keeps the shape of the template of its pair.
3. Two names of one template have equally many parts between their dots, whatever rows they come
   from.
4. For a query without tabs and line feeds in its prefix and its templates, the line exporter writes
   each batch that it accepts as one line for each point, with two tabs in it, of which the first
   field is the name and the last one reads as the time. -/
theorem names_keep_shape (q : Query) :
    (∀ template : String, (pieces template.toList).flatMap Piece.source = template.toList) ∧
    (∀ rows now points, (q.extract rows now).result = .ok points →
      List.Forall₂ (fun c p => q.KeepsShape c.template p.name)
        ((q.candidates rows).filter (q.Emits ·)) points) ∧
    (∀ rows now points rows' now' points', (q.extract rows now).result = .ok points →
      (q.extract rows' now').result = .ok points' →
      ∀ c p c' p', (c, p) ∈ ((q.candidates rows).filter (q.Emits ·)).zip points →
        (c', p') ∈ ((q.candidates rows').filter (q.Emits ·)).zip points' →
        c.template = c'.template →
        (p.name.toList.splitOn '.').length = (p'.name.toList.splitOn '.').length) ∧
    (q.Plain → ∀ rows now points, (q.extract rows now).result = .ok points →
      ∀ (w : Stdout.Writer) (s s' : Stdout.Stream),
        Stdout.exportBatch w s points = (s', .ok ()) →
        ∃ lines : List (List Char),
          s'.written = s.written ++ Text.Utf8.encodeChars (lines.flatMap (· ++ ['\n'])) ∧
            List.Forall₂ Stdout.Readable points lines) := by
  refine ⟨fun template => Template.source_pieces _, fun rows now points => forall₂_keepsShape, ?_,
    ?_⟩
  · intro rows now points rows' now' points' hResult hResult' c p c' p' hPair hPair' hTemplate
    -- Both names have as many dots as the prefix and the literal text of the one template.
    have hShape := (List.forall₂_iff_zip.mp (forall₂_keepsShape hResult)).2 hPair
    have hShape' := (List.forall₂_iff_zip.mp (forall₂_keepsShape hResult')).2 hPair'
    rw [← hTemplate] at hShape'
    exact hShape.length_parts hShape'
  · intro hPlain rows now points hResult w s s' hExport
    exact Stdout.readable_exportBatch (hPlain.plain_names hResult) hExport

/-- A row with a tab, a dot and a line feed in its text gives a name with the dots of the query
only, and the batch is written as one readable line. -/
theorem names_keep_shape_hostile_row :
    let q : Query :=
      { keyPrefix := some "db", valueKey := KeyMap.ofList [("conn.#\x7bhost\x7d", "n")] }
    let rows : List Row := [KeyMap.ofList [("host", .text "a\tb.c\nd"), ("n", .int 3)]]
    let points : List MetricPoint := [⟨"db.conn.a_b_c_d", 7, .int 3⟩]
    (q.extract rows 7).result = .ok points ∧
      List.Forall₂ (fun c p => q.KeepsShape c.template p.name)
        ((q.candidates rows).filter (q.Emits ·)) points ∧
      ∃ (s : Stdout.Stream) (lines : List (List Char)),
        Stdout.exportBatch Stdout.Writer.unlimited {} points = (s, .ok ()) ∧
          s.written = Text.Utf8.encodeChars (lines.flatMap (· ++ ['\n'])) ∧
            List.Forall₂ Stdout.Readable points lines := by
  intro q rows points
  have hResult : (q.extract rows 7).result = .ok points := by cbv
  have hPlain : q.Plain := by
    constructor
    · intro text hText
      cases hText
      exact ⟨by decide, by decide⟩
    · intro entry hEntry
      have hEntries : q.valueKey.toList = [("conn.#\x7bhost\x7d", "n")] := by cbv
      obtain rfl := List.mem_singleton.mp (hEntries ▸ hEntry)
      exact ⟨by decide, by decide⟩
  obtain ⟨-, hShapes, -, hLines⟩ := names_keep_shape q
  have hAccepted : (Stdout.exportBatch Stdout.Writer.unlimited {} points).2 = .ok () := by
    decide +kernel
  have hExport : Stdout.exportBatch Stdout.Writer.unlimited {} points =
      ((Stdout.exportBatch Stdout.Writer.unlimited {} points).1, .ok ()) := Prod.ext rfl hAccepted
  obtain ⟨lines, hWritten, hReadable⟩ := hLines hPlain rows 7 points hResult _ _ _ hExport
  exact ⟨hResult, hShapes rows 7 points hResult, _, lines, hExport, hWritten, hReadable⟩

end SqlMetrics.Query
