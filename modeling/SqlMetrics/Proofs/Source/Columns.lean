import Mathlib
import SqlMetrics.Source.Column

/-!
# Reading results

A result is read cell by cell, and reading stops at the first cell that cannot be read.  This file
says what is read of a result and where the reading stops, without the order in which it is done.

- **Cells**: `Decodes` says which value a cell has in its column, and `Refuses` what is wrong with
  one that has none.
- **Rows**: `Reads` has a value for every column, and `Stops` the first bad column.
- **Results**: `exists_readRows_eq_ok_iff` says when the rows of a result are given, all of them, and
  `readRows_eq_error_iff` which error stands for them otherwise.
-/

namespace SqlMetrics.Source

variable {server : ServerKind} {columns : List Column} {cells : List Cell} {e : SourceError}

/-! ## Cells -/

/-- The server's table has a column type. -/
def Listed (server : ServerKind) (typeName : String) : Prop :=
  (cellReader? server typeName).isSome = true

/-- The cell has this value in the column. -/
def Decodes (server : ServerKind) (column : Column) (cell : Cell) (v : RawValue) : Prop :=
  ∃ read, cellReader? server column.typeName = some read ∧ read cell = .ok v

/-- What is wrong with a cell of the column with this number. -/
inductive Refuses (server : ServerKind) (index : Nat) (column : Column) (cell : Cell) :
    SourceError → Prop where
  /-- The table does not have the type of the column, whatever the cell is. -/
  | unlisted (hReader : cellReader? server column.typeName = none) :
    Refuses server index column cell (.unsupportedColumn column.name column.typeName)
  /-- The table has the type, and the cell does not decode. -/
  | undecoded {read : Cell → Except CellError RawValue} {cause : CellError}
      (hReader : cellReader? server column.typeName = some read) (hCell : read cell = .error cause) :
    Refuses server index column cell (cause.toSourceError index)

section Cells

variable {index : Nat} {column : Column} {cell : Cell} {v : RawValue}

theorem Decodes.listed (h : Decodes server column cell v) : Listed server column.typeName := by
  obtain ⟨read, hReader, -⟩ := h
  rw [Listed, hReader]
  rfl

theorem readCell_eq_ok_iff :
    readCell server index column cell = .ok v ↔ Decodes server column cell v := by
  rw [readCell, Decodes]
  cases cellReader? server column.typeName with
  | none => simp
  | some read => cases hCell : read cell <;> simp [hCell]

theorem readCell_eq_error_iff :
    readCell server index column cell = .error e ↔ Refuses server index column cell e := by
  constructor
  · intro h
    rw [readCell] at h
    split at h
    · next hReader =>
      cases h
      exact .unlisted hReader
    · next read hReader =>
      split at h
      · cases h
      · next cause hCell =>
        cases h
        exact .undecoded hReader hCell
  · intro h
    cases h with
    | unlisted hReader => simp [readCell, hReader]
    | undecoded hReader hCell => simp [readCell, hReader, hCell]

end Cells

/-! ## Rows -/

/-- The raw row has every column in its place, under its name and with the value of its cell.  A cell
that is not there is null. -/
def Reads (server : ServerKind) (columns : List Column) (cells : List Cell) (row : RawRow) : Prop :=
  row.length = columns.length ∧ ∀ i c, columns[i]? = some c →
    ∃ v, row[i]? = some (c.name, v) ∧ Decodes server c (cells.getD i .null) v

/-- The columns before one of a row, counted from a number on, decode, and this one does not. -/
def StopsFrom (server : ServerKind) (first : Nat) (columns : List Column) (cells : List Cell)
    (e : SourceError) : Prop :=
  ∃ i c, columns[i]? = some c ∧ Refuses server (first + i) c (cells.getD i .null) e ∧
    ∀ j d, j < i → columns[j]? = some d → ∃ v, Decodes server d (cells.getD j .null) v

/-- The error is that of the first bad column of a row. -/
def Stops (server : ServerKind) (columns : List Column) (cells : List Cell) (e : SourceError) :
    Prop :=
  StopsFrom server 0 columns cells e

theorem getD_tail (i : Nat) : cells.tail.getD i .null = cells.getD (i + 1) .null := by
  cases cells <;> rfl

theorem headD_eq_getD : cells.headD .null = cells.getD 0 .null := by
  cases cells <;> rfl

theorem reads_cons_iff {column : Column} {row : RawRow} :
    Reads server (column :: columns) cells row ↔ ∃ v rest, row = (column.name, v) :: rest ∧
      Decodes server column (cells.headD .null) v ∧ Reads server columns cells.tail rest := by
  rw [headD_eq_getD]
  constructor
  · rintro ⟨hLength, hCells⟩
    obtain ⟨v, hFirst, hDecodes⟩ := hCells 0 column rfl
    obtain ⟨cell, rest, rfl⟩ := List.exists_cons_of_length_eq_add_one hLength
    obtain rfl : cell = (column.name, v) := by simpa using hFirst
    refine ⟨v, rest, rfl, hDecodes, by simpa using hLength, fun i c hColumn => ?_⟩
    obtain ⟨u, hPlace, hOther⟩ := hCells (i + 1) c hColumn
    exact ⟨u, hPlace, by rwa [getD_tail]⟩
  · rintro ⟨v, rest, rfl, hDecodes, hLength, hCells⟩
    refine ⟨by simp [hLength], fun i c hColumn => ?_⟩
    cases i with
    | zero =>
      obtain rfl : column = c := by simpa using hColumn
      exact ⟨v, rfl, hDecodes⟩
    | succ i =>
      obtain ⟨u, hPlace, hOther⟩ := hCells i c hColumn
      exact ⟨u, hPlace, by rwa [getD_tail] at hOther⟩

theorem stopsFrom_cons_iff {first : Nat} {column : Column} :
    StopsFrom server first (column :: columns) cells e ↔
      Refuses server first column (cells.headD .null) e ∨
        (∃ v, Decodes server column (cells.headD .null) v) ∧
          StopsFrom server (first + 1) columns cells.tail e := by
  rw [headD_eq_getD]
  constructor
  · rintro ⟨i, c, hColumn, hRefuses, hBefore⟩
    cases i with
    | zero =>
      obtain rfl : column = c := by simpa using hColumn
      exact .inl hRefuses
    | succ i =>
      refine .inr ⟨hBefore 0 column (Nat.succ_pos i) rfl, i, c, hColumn, ?_, fun j d hLess hOther => ?_⟩
      · rwa [getD_tail, Nat.add_right_comm]
      · rw [getD_tail]
        exact hBefore (j + 1) d (Nat.succ_lt_succ hLess) hOther
  · rintro (hRefuses | ⟨hDecodes, i, c, hColumn, hRefuses, hBefore⟩)
    · exact ⟨0, column, rfl, hRefuses, nofun⟩
    · refine ⟨i + 1, c, hColumn, ?_, fun j d hLess hOther => ?_⟩
      · rwa [getD_tail, Nat.add_right_comm] at hRefuses
      · cases j with
        | zero =>
          obtain rfl : column = d := by simpa using hOther
          exact hDecodes
        | succ j =>
          rw [← getD_tail]
          exact hBefore j d (Nat.lt_of_succ_lt_succ hLess) hOther

theorem readCells_cons_eq_ok_iff {first : Nat} {column : Column} {row : RawRow} :
    readCells server first (column :: columns) cells = .ok row ↔ ∃ v rest,
      row = (column.name, v) :: rest ∧ readCell server first column (cells.headD .null) = .ok v ∧
        readCells server (first + 1) columns cells.tail = .ok rest := by
  rw [readCells]
  cases readCell server first column (cells.headD .null) with
  | error e => simp
  | ok v =>
    cases readCells server (first + 1) columns cells.tail with
    | error e => simp
    | ok rest => simp [eq_comm]

theorem readCells_cons_eq_error_iff {first : Nat} {column : Column} :
    readCells server first (column :: columns) cells = .error e ↔
      readCell server first column (cells.headD .null) = .error e ∨
        (∃ v, readCell server first column (cells.headD .null) = .ok v) ∧
          readCells server (first + 1) columns cells.tail = .error e := by
  rw [readCells]
  cases readCell server first column (cells.headD .null) with
  | error e => simp
  | ok v => cases readCells server (first + 1) columns cells.tail <;> simp

/-- A row is read where every column decodes. -/
theorem readCells_eq_ok_iff {first : Nat} {row : RawRow} :
    readCells server first columns cells = .ok row ↔ Reads server columns cells row := by
  induction columns generalizing first cells row with
  | nil => simp [readCells, Reads, eq_comm]
  | cons column columns ih =>
    rw [readCells_cons_eq_ok_iff, reads_cons_iff]
    simp only [readCell_eq_ok_iff, ih]

/-- Where a row is not read, the error is that of its first bad column. -/
theorem readCells_eq_error_iff {first : Nat} :
    readCells server first columns cells = .error e ↔ StopsFrom server first columns cells e := by
  induction columns generalizing first cells with
  | nil => simp [readCells, StopsFrom]
  | cons column columns ih =>
    rw [readCells_cons_eq_error_iff, stopsFrom_cons_iff]
    simp only [readCell_eq_ok_iff, readCell_eq_error_iff, ih]

theorem exists_reads_iff : (∃ row, Reads server columns cells row) ↔
    ∀ i c, columns[i]? = some c → ∃ v, Decodes server c (cells.getD i .null) v := by
  constructor
  · rintro ⟨row, -, hCells⟩ i c hColumn
    obtain ⟨v, -, hDecodes⟩ := hCells i c hColumn
    exact ⟨v, hDecodes⟩
  · intro hDecode
    cases hRow : readCells server 0 columns cells with
    | ok row => exact ⟨row, readCells_eq_ok_iff.mp hRow⟩
    | error e =>
      obtain ⟨i, c, hColumn, hRefuses, -⟩ := readCells_eq_error_iff.mp hRow
      obtain ⟨v, hDecodes⟩ := hDecode i c hColumn
      cases (readCell_eq_error_iff.mpr hRefuses).symm.trans (readCell_eq_ok_iff.mpr hDecodes)

/-! ## Results -/

section Results

variable {rows : List (List Cell)} {raw : List RawRow}

/-- A result is read where every row is, one raw row for each. -/
theorem readRows_eq_ok_iff :
    readRows server columns rows = .ok raw ↔ List.Forall₂ (Reads server columns) rows raw := by
  induction rows generalizing raw with
  | nil => simp [readRows, eq_comm]
  | cons cells rows ih =>
    rw [readRows, List.forall₂_cons_left_iff]
    cases hRow : readCells server 0 columns cells with
    | error e =>
      simp only [reduceCtorEq, false_iff, not_exists, not_and]
      intro row rest hReads
      rw [readCells_eq_ok_iff.mpr hReads] at hRow
      cases hRow
    | ok row =>
      have hReads (other : RawRow) : Reads server columns cells other ↔ row = other := by
        rw [← readCells_eq_ok_iff, hRow, Except.ok.injEq]
      simp only [hReads, ← ih]
      cases readRows server columns rows with
      | error e => simp
      | ok rest => simp [eq_comm]

/-- The rows of a result up to one decode, and this one does not. -/
def StopsIn (server : ServerKind) (columns : List Column) (rows : List (List Cell))
    (e : SourceError) : Prop :=
  ∃ before cells after, rows = before ++ cells :: after ∧ Stops server columns cells e ∧
    ∀ earlier ∈ before, ∃ row, Reads server columns earlier row

theorem stopsIn_cons_iff : StopsIn server columns (cells :: rows) e ↔
    Stops server columns cells e ∨
      (∃ row, Reads server columns cells row) ∧ StopsIn server columns rows e := by
  constructor
  · rintro ⟨before, stopped, after, hRows, hStops, hBefore⟩
    cases before with
    | nil =>
      obtain ⟨rfl, rfl⟩ := List.cons.inj hRows
      exact .inl hStops
    | cons earlier before =>
      obtain ⟨rfl, rfl⟩ := List.cons.inj hRows
      obtain ⟨hFirst, hRest⟩ := List.forall_mem_cons.mp hBefore
      exact .inr ⟨hFirst, before, stopped, after, rfl, hStops, hRest⟩
  · rintro (hStops | ⟨hFirst, before, stopped, after, rfl, hStops, hBefore⟩)
    · exact ⟨[], cells, rows, rfl, hStops, nofun⟩
    · exact ⟨cells :: before, stopped, after, rfl, hStops,
        List.forall_mem_cons.mpr ⟨hFirst, hBefore⟩⟩

theorem readRows_cons_eq_error_iff :
    readRows server columns (cells :: rows) = .error e ↔
      readCells server 0 columns cells = .error e ∨
        (∃ row, readCells server 0 columns cells = .ok row) ∧
          readRows server columns rows = .error e := by
  rw [readRows]
  cases readCells server 0 columns cells with
  | error e => simp
  | ok row => cases readRows server columns rows <;> simp

/-- Where a result is not read, the error is that of its first bad row. -/
theorem readRows_eq_error_iff :
    readRows server columns rows = .error e ↔ StopsIn server columns rows e := by
  induction rows with
  | nil => simp [readRows, StopsIn]
  | cons cells rows ih =>
    rw [readRows_cons_eq_error_iff, stopsIn_cons_iff]
    simp only [readCells_eq_ok_iff, readCells_eq_error_iff, ih, Stops]

theorem exists_readRows_eq_ok_iff_reads :
    (∃ raw, readRows server columns rows = .ok raw) ↔
      ∀ cells ∈ rows, ∃ row, Reads server columns cells row := by
  induction rows with
  | nil => simp [readRows]
  | cons cells rows ih =>
    rw [List.forall_mem_cons, ← ih]
    simp only [readRows_eq_ok_iff, List.forall₂_cons_left_iff]
    constructor
    · rintro ⟨raw, row, rest, hRow, hRest, rfl⟩
      exact ⟨⟨row, hRow⟩, rest, hRest⟩
    · rintro ⟨⟨row, hRow⟩, rest, hRest⟩
      exact ⟨_, row, rest, hRow, hRest, rfl⟩

/-- **A result is given where it has no rows, or the table has the type of every column and every cell
decodes**, and not otherwise. -/
theorem exists_readRows_eq_ok_iff :
    (∃ raw, readRows server columns rows = .ok raw) ↔ rows = [] ∨
      (∀ c ∈ columns, Listed server c.typeName) ∧ ∀ cells ∈ rows, ∀ i c, columns[i]? = some c →
        ∃ v, Decodes server c (cells.getD i .null) v := by
  rw [exists_readRows_eq_ok_iff_reads]
  simp only [exists_reads_iff]
  constructor
  · intro hDecode
    refine rows.eq_nil_or_concat.imp id fun ⟨_, cells, hRows⟩ => ⟨fun c hMem => ?_, hDecode⟩
    have hRow : cells ∈ rows := by simp [hRows]
    obtain ⟨i, hColumn⟩ := List.getElem?_of_mem hMem
    obtain ⟨v, hDecodes⟩ := hDecode cells hRow i c hColumn
    exact hDecodes.listed
  · rintro (rfl | ⟨-, hDecode⟩)
    · exact nofun
    · exact hDecode

end Results

end SqlMetrics.Source
