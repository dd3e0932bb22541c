import Mathlib.Data.List.Forall2
import SqlMetrics.Export.Stdout
import SqlMetrics.Proofs.Number.Text

/-!
# Lines that can be read back

A batch that the line exporter accepts is written as one line for each point.  Where no name holds a
tab or a line feed, the lines can be told apart, and so can the fields of each line.

- **Bytes**: an export that succeeds has written the whole block and nothing else.
- **Lines**: the block of a batch is a line for each point.
- **Fields**: `Readable` says what can be read off a line, and every line of a point whose name is
  free of tabs and line feeds is readable.
-/

namespace SqlMetrics.Stdout

open Number (Double)

/-! ## Bytes -/

/-- A writer that has not failed has taken all bytes, in order. -/
theorem written_writeAll {w : Writer} {s s' : Stream} {bytes : Bytes}
    (h : writeAll w s bytes = (s', none)) : s'.written = s.written ++ bytes := by
  fun_induction writeAll w s bytes with
  | case1 s =>
    cases h
    exact (List.append_nil _).symm
  | case2 => cases h
  | case3 => cases h
  | case4 s b rest n _ taken ih =>
    have hTaken : taken ++ rest.drop n = b :: rest := by simp [taken]
    rw [ih h, List.append_assoc, hTaken]

/-- An export that succeeds has written the block of the batch. -/
theorem written_exportBatch {w : Writer} {s s' : Stream} {points : List MetricPoint}
    (h : exportBatch w s points = (s', .ok ())) :
    ∃ text, block points = .ok text ∧ s'.written = s.written ++ Text.encode text := by
  rw [exportBatch] at h
  cases hBlock : block points with
  | error e => simp [hBlock] at h
  | ok text =>
    refine ⟨text, rfl, ?_⟩
    rw [hBlock] at h
    dsimp only at h
    split at h
    case h_1 => cases h
    case h_2 written hWritten =>
      split at h
      · cases h
      · cases h
        exact (written_writeAll hWritten :)

/-! ## Lines -/

/-- The line of a point without the line feed behind it. -/
def lineChars (p : MetricPoint) (x : Double) : List Char :=
  p.name.toList ++ '\t' :: ((x.fixed 6).toList ++ '\t' :: (Number.intText p.time.toInt).toList)

theorem toList_line (p : MetricPoint) (x : Double) :
    (line p x).toList = lineChars p x ++ ['\n'] := by
  simp [line, lineChars]

/-- The block of a batch is a line for each point, with a line feed behind it. -/
theorem lines_of_block {points : List MetricPoint} {text : String} (h : block points = .ok text) :
    ∃ lines : List (List Char), text.toList = lines.flatMap (· ++ ['\n']) ∧
      List.Forall₂ (fun p l => ∃ x, finite? p.value = some x ∧ l = lineChars p x) points lines := by
  induction points generalizing text with
  | nil =>
    cases h
    exact ⟨[], rfl, .nil⟩
  | cons p rest ih =>
    rw [block] at h
    cases hFinite : finite? p.value with
    | none => simp [hFinite] at h
    | some x =>
      cases hRest : block rest with
      | error e => simp [hFinite, hRest, Except.map] at h
      | ok more =>
        obtain ⟨lines, hText, hLines⟩ := ih hRest
        rw [hFinite, hRest] at h
        cases h
        refine ⟨lineChars p x :: lines, ?_, .cons ⟨x, hFinite, rfl⟩ hLines⟩
        rw [String.toList_append, toList_line, hText, List.flatMap_cons]

/-! ## Fields -/

/-- Neither a tab nor a line feed. -/
def Plain (cs : List Char) : Prop :=
  '\t' ∉ cs ∧ '\n' ∉ cs

/-- What can be read off a line: it is one line, two tabs part its three fields, the first field is
the name, and the last one reads as the time. -/
structure Readable (p : MetricPoint) (line : List Char) : Prop where
  one_line : '\n' ∉ line
  two_tabs : line.count '\t' = 2
  fields : ∃ value time, line.splitOn '\t' = [p.name.toList, value, time] ∧
    Number.readInt? time = some p.time.toInt

theorem plain_of_isNumeralChar {cs : List Char} (h : ∀ c ∈ cs, Number.IsNumeralChar c) :
    Plain cs :=
  ⟨fun hMem => (h _ hMem).ne.1 rfl, fun hMem => (h _ hMem).ne.2 rfl⟩

/-- The line of a point with a plain name is readable. -/
theorem readable_lineChars {p : MetricPoint} (x : Double) (hName : Plain p.name.toList) :
    Readable p (lineChars p x) := by
  have hValue : Plain (x.fixed 6).toList :=
    plain_of_isNumeralChar fun c => Number.isNumeralChar_of_mem_fixed
  have hTime : Plain (Number.intText p.time.toInt).toList :=
    plain_of_isNumeralChar fun c => Number.isNumeralChar_of_mem_intText
  constructor
  case one_line => simp [lineChars, hName.2, hValue.2, hTime.2]
  case two_tabs =>
    simp [lineChars, List.count_eq_zero_of_not_mem hName.1, List.count_eq_zero_of_not_mem hValue.1,
      List.count_eq_zero_of_not_mem hTime.1]
  case fields =>
    refine ⟨(x.fixed 6).toList, (Number.intText p.time.toInt).toList, ?_,
      Number.readInt?_intText (Number.fitsInt64_toInt p.time)⟩
    have hJoined : lineChars p x = ['\t'].intercalate
        [p.name.toList, (x.fixed 6).toList, (Number.intText p.time.toInt).toList] := by
      simp [lineChars, List.intercalate]
    rw [hJoined]
    refine List.splitOn_intercalate _ (fun l hMem => ?_) (List.cons_ne_nil _ _)
    simp only [List.mem_cons, List.not_mem_nil, or_false] at hMem
    rcases hMem with rfl | rfl | rfl
    · exact hName.1
    · exact hValue.1
    · exact hTime.1

/-- **A batch of points with plain names is written as readable lines**, one for each point. -/
theorem readable_exportBatch {w : Writer} {s s' : Stream} {points : List MetricPoint}
    (hNames : ∀ p ∈ points, Plain p.name.toList) (h : exportBatch w s points = (s', .ok ())) :
    ∃ lines : List (List Char),
      s'.written = s.written ++ Text.Utf8.encodeChars (lines.flatMap (· ++ ['\n'])) ∧
        List.Forall₂ Readable points lines := by
  obtain ⟨text, hBlock, hWritten⟩ := written_exportBatch h
  obtain ⟨lines, hText, hLines⟩ := lines_of_block hBlock
  refine ⟨lines, by rw [hWritten, Text.encode, hText], ?_⟩
  -- On the points, each with its line; the export as a whole is of no more use.
  clear h hBlock hText
  induction hLines with
  | nil => exact .nil
  | cons hLine _ ih =>
    obtain ⟨x, -, rfl⟩ := hLine
    refine .cons (readable_lineChars x (hNames _ List.mem_cons_self)) (ih fun p hMem => ?_)
    exact hNames p (List.mem_cons_of_mem _ hMem)

end SqlMetrics.Stdout
