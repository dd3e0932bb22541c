import Mathlib
import SqlMetrics.Source.Sqlite.Statement
import SqlMetrics.Proofs.Number.Integer
import SqlMetrics.Proofs.Source.Columns

/-!
# What databases agree on

Every database has its own way from what it keeps to raw values.  After coercion the ways end at the
same place: an integer is the integer, character data is what its text spells, and null is null.

- **Worth**: `Cell.worth` is the value of a cell after coercion, without a database.
- **Ways**: `coerce_eq_worth` for the columns of each server and for SQLite.
- **Integers**: `worth_int` says what integers are worth up to the greatest unsigned one.
- **Results**: `rows_mapped_alike` puts together what holds of the rows of all databases, and
  `blank_padded_text_refused` is a column that Postgres holds and the table has, and that is refused.
-/

namespace SqlMetrics

open Number (Double)

namespace Source

/-! ## Worth -/

/-- The value of a cell after coercion, whatever database it comes from. -/
def Cell.worth : Cell → Value
  | .null => .null
  | .int n => if n < 2 ^ 63 then .int (Int64.ofInt n) else .float (Double.ofInt n)
  | .float x => .float x
  | .bool b => .bool b
  | .bytes data => Value.ofText (Text.decodeLossy data)
  | .instant micros => .text (instantText micros)

/-- An integer is worth itself where 64 bits hold it with a sign, and above that the nearest double. -/
theorem Cell.worth_int {n : Int} (hLow : -2 ^ 63 ≤ n) (hHigh : n < 2 ^ 64) :
    (n < 2 ^ 63 → ∃ i : Int64, i.toInt = n ∧ (Cell.int n).worth = .int i) ∧
      (2 ^ 63 ≤ n → ∃ x : Double, (Cell.int n).worth = .float x ∧ x.isFinite = true ∧
        x.isNegative = false ∧ ∀ y : Double, y.isFinite = true →
          |(n : ℚ) - x.scaled.value| ≤ |(n : ℚ) - y.scaled.value|) := by
  refine ⟨fun hFits => ⟨Int64.ofInt n, Int64.toInt_ofInt_of_le hLow hFits, ?_⟩, fun hWide => ?_⟩
  · exact if_pos hFits
  · obtain ⟨k, rfl⟩ := Int.eq_ofNat_of_zero_le (by omega : 0 ≤ n)
    refine ⟨Double.ofInt k, ?_, ?_⟩
    · rw [worth, if_neg (by omega)]
    · exact_mod_cast Number.ofInt_natCast_nearest (n := k) (by omega) (by omega)

/-! ## Servers -/

theorem fitsSigned_iff {bits : Nat} {n : Int} :
    fitsSigned bits n = true ↔ -2 ^ (bits - 1) ≤ n ∧ n < 2 ^ (bits - 1) := by
  simp [fitsSigned, Number.twoTo]

/-- A signed integer of 64 bits at most is worth itself. -/
theorem coerce_signed {bits : Nat} (hBits : bits ≤ 64) {n : Int} {v : RawValue}
    (h : fitting (signed? bits n) = .ok v) : v.coerce = (Cell.int n).worth := by
  rw [signed?] at h
  split at h
  · next hFits =>
    cases h
    have hPower : (2 : Int) ^ (bits - 1) ≤ 2 ^ 63 := by
      gcongr
      · norm_num
      · omega
    obtain ⟨-, hHigh⟩ := fitsSigned_iff.mp hFits
    rw [Cell.worth, if_pos (hHigh.trans_le hPower)]
    rfl
  · cases h

theorem coerce_ofUnsigned (n : Nat) : (ofUnsigned n).coerce = (Cell.int n).worth := by
  rw [ofUnsigned, Cell.worth]
  by_cases hFits : n < 2 ^ 63
  · rw [if_pos (by simpa [Number.twoTo] using hFits), if_pos (by exact_mod_cast hFits)]
    rfl
  · rw [if_neg (by simpa [Number.twoTo] using hFits), if_neg (by exact_mod_cast hFits)]
    rfl

/-- A Postgres column gives what its cells are worth, unless it rounds them to single precision. -/
theorem PostgresKind.coerce_eq_worth {kind : PostgresKind} {cell : Cell} {v : RawValue}
    (h : kind.rawValue cell = .ok v) (hKind : kind ≠ .float4) : v.coerce = cell.worth := by
  unfold rawValue at h
  split at h
  case h_3 | h_4 | h_5 => exact coerce_signed (by norm_num) h
  case h_6 => exact absurd rfl hKind
  case h_8 =>
    split at h
    · cases h
      rfl
    · cases h
  all_goals cases h
  all_goals rfl

/-- A MySQL column gives what its cells are worth, unless it rounds them to single precision or
takes them for truth values. -/
theorem MySqlKind.coerce_eq_worth {kind : MySqlKind} {cell : Cell} {v : RawValue}
    (h : kind.rawValue cell = .ok v) (hKind : kind ≠ .float) (hTruth : kind ≠ .bool) :
    v.coerce = cell.worth := by
  unfold rawValue at h
  split at h
  case h_2 | h_3 => exact absurd rfl hTruth
  case h_4 => exact coerce_signed le_rfl h
  case h_5 n =>
    split at h
    · next hRange =>
      cases h
      have hNonneg : 0 ≤ n := by simp at hRange; exact hRange.1
      rw [coerce_ofUnsigned, Int.toNat_of_nonneg hNonneg]
    · cases h
  case h_6 => exact absurd rfl hKind
  all_goals cases h
  all_goals rfl

/-- The integers of a column type: from the first on and below the second. -/
def integerRange? (server : ServerKind) (typeName : String) : Option (Int × Int) :=
  match server with
  | .postgres =>
    match PostgresKind.ofTypeName? typeName with
    | some .int2 => some (-2 ^ 15, 2 ^ 15)
    | some .int4 => some (-2 ^ 31, 2 ^ 31)
    | some .int8 => some (-2 ^ 63, 2 ^ 63)
    | _ => none
  | .mysql =>
    match MySqlKind.ofTypeName? typeName with
    | some .int => some (-2 ^ 63, 2 ^ 63)
    | some .unsignedInt => some (0, 2 ^ 64)
    | _ => none

section Columns

variable {server : ServerKind} {column : Column}

/-- An integer that a column type has decodes, and is worth itself. -/
theorem decodes_int {low high n : Int} (hType : integerRange? server column.typeName = some (low, high))
    (hLow : low ≤ n) (hHigh : n < high) :
    ∃ v, Decodes server column (.int n) v ∧ v.coerce = (Cell.int n).worth := by
  have hSigned (bits : Nat) (hBits : bits ≤ 64) (hFits : -2 ^ (bits - 1) ≤ n ∧ n < 2 ^ (bits - 1)) :
      ∃ v, fitting (signed? bits n) = .ok v ∧ v.coerce = (Cell.int n).worth := by
    have hOk : fitting (signed? bits n) = .ok (.int (Int64.ofInt n)) := by
      rw [signed?, if_pos (fitsSigned_iff.mpr hFits)]
      rfl
    exact ⟨_, hOk, coerce_signed hBits hOk⟩
  -- What is left is which reader the type has, and that an integer of its range fits it.
  suffices hRead : ∃ read, cellReader? server column.typeName = some read ∧
      ∃ v, read (.int n) = .ok v ∧ v.coerce = (Cell.int n).worth by
    obtain ⟨read, hReader, v, hCell, hWorth⟩ := hRead
    exact ⟨v, ⟨read, hReader, hCell⟩, hWorth⟩
  cases server with
  | postgres =>
    simp only [integerRange?] at hType
    split at hType <;> cases hType
    case h_1 hKind =>
      exact ⟨_, by rw [cellReader?, hKind]; rfl, hSigned 16 (by norm_num) ⟨hLow, hHigh⟩⟩
    case h_2 hKind =>
      exact ⟨_, by rw [cellReader?, hKind]; rfl, hSigned 32 (by norm_num) ⟨hLow, hHigh⟩⟩
    case h_3 hKind => exact ⟨_, by rw [cellReader?, hKind]; rfl, hSigned 64 le_rfl ⟨hLow, hHigh⟩⟩
  | mysql =>
    simp only [integerRange?] at hType
    split at hType <;> cases hType
    case h_1 hKind => exact ⟨_, by rw [cellReader?, hKind]; rfl, hSigned 64 le_rfl ⟨hLow, hHigh⟩⟩
    case h_2 hKind =>
      refine ⟨_, by rw [cellReader?, hKind]; rfl, ofUnsigned n.toNat, ?_, ?_⟩
      · have hRange : (0 ≤ n && n < Number.twoTo 64) = true := by
          simpa [Number.twoTo] using ⟨hLow, hHigh⟩
        exact if_pos hRange
      · rw [coerce_ofUnsigned, Int.toNat_of_nonneg hLow]

/-- Bytes are character data of which coercion reads the text. -/
theorem Decodes.bytes {data : Bytes} {v : RawValue} (h : Decodes server column (.bytes data) v) :
    v.coerce = (Cell.bytes data).worth := by
  obtain ⟨read, hReader, hCell⟩ := h
  cases server with
  | postgres =>
    obtain ⟨kind, -, rfl⟩ := Option.map_eq_some_iff.mp hReader
    refine PostgresKind.coerce_eq_worth hCell ?_
    rintro rfl
    cases hCell
  | mysql =>
    obtain ⟨kind, -, rfl⟩ := Option.map_eq_some_iff.mp hReader
    refine MySqlKind.coerce_eq_worth hCell ?_ ?_ <;>
    · rintro rfl
      cases hCell

/-- Null is null in a column of any type that the table has. -/
theorem Listed.decodes_null (h : Listed server column.typeName) :
    Decodes server column .null .null := by
  obtain ⟨read, hReader⟩ := Option.isSome_iff_exists.mp h
  refine ⟨read, hReader, ?_⟩
  cases server with
  | postgres =>
    obtain ⟨kind, -, rfl⟩ := Option.map_eq_some_iff.mp hReader
    cases kind <;> rfl
  | mysql =>
    obtain ⟨kind, -, rfl⟩ := Option.map_eq_some_iff.mp hReader
    cases kind <;> rfl

end Columns

end Source

/-! ## SQLite -/

namespace Sqlite

/-- The cell that a SQLite value is; text is bytes, as a blob is. -/
def Datum.cell : Datum → Source.Cell
  | .null => .null
  | .int n => .int n.toInt
  | .real x => .float x
  | .text data | .blob data => .bytes data

/-- A SQLite value is worth what its cell is. -/
theorem Datum.coerce_eq_worth (d : Datum) : d.raw.coerce = d.cell.worth := by
  cases d with
  | int n =>
    rw [cell, Source.Cell.worth, if_pos n.toInt_lt, Int64.ofInt_toInt]
    rfl
  | null | real | text | blob => rfl

/-- A statement gives a raw row for each of its rows, with the columns of the statement and what the
values of the row are. -/
theorem Select.forall₂_run {s : Select} {params : List Param} {raw : List RawRow}
    (h : s.run params = .ok raw) (hRows : ∀ row ∈ s.rows, row.length = s.columns.length) :
    List.Forall₂ (fun operands row => row.map Prod.fst = s.columns ∧
      row.map Prod.snd = operands.map fun o => (o.value params).raw) s.rows raw := by
  rw [run] at h
  split at h
  · cases h
  · cases h
    rw [List.forall₂_map_right_iff, List.forall₂_same]
    intro operands hMem
    have hLength := hRows operands hMem
    exact ⟨List.map_fst_zip (by simp [hLength]), List.map_snd_zip (by simp [hLength])⟩

end Sqlite

/-! ## Results -/

namespace Source

/-- A result as the client of the server hands it over, where every column has the type under the name
that the client knows it by. -/
def ResultSet.reported (server : ServerKind) (result : ResultSet) : ResultSet :=
  { result with columns := result.columns.map fun c => ⟨c.name, reportedType server c.typeName⟩ }

/-- Every type but the blank-padded text of Postgres is reported under its own name, and the table does
not have the name that this one is reported under. -/
theorem reportedType_cases (server : ServerKind) (typeName : String) :
    reportedType server typeName = typeName ∨
      server = .postgres ∧ typeName = "BPCHAR" ∧ ¬ Listed server (reportedType server typeName) := by
  unfold reportedType
  split
  · exact .inr ⟨rfl, rfl, Bool.false_ne_true⟩
  · exact .inl rfl

/-- A result is reported as it is, or has blank-padded text and is refused for it. -/
theorem ResultSet.reported_cases (server : ServerKind) (answer : ResultSet) :
    answer.reported server = answer ∨
      server = .postgres ∧ (∃ c ∈ answer.columns, c.typeName = "BPCHAR") ∧
        (answer.rows = [] ∨ ∃ e, (answer.reported server).rawRows server = .error e) := by
  by_cases hAll : ∀ c ∈ answer.columns, reportedType server c.typeName = c.typeName
  · have hColumns : answer.columns.map (fun c => ⟨c.name, reportedType server c.typeName⟩) =
        answer.columns := by
      conv_rhs => rw [← List.map_id answer.columns]
      exact List.map_congr_left fun c hMem => by rw [hAll c hMem, id]
    exact .inl (by rw [reported, hColumns])
  · push Not at hAll
    obtain ⟨c, hMem, hOther⟩ := hAll
    obtain ⟨hServer, hType, hUnlisted⟩ := (reportedType_cases server c.typeName).resolve_left hOther
    refine .inr ⟨hServer, ⟨c, hMem, hType⟩, ?_⟩
    cases hRows : (answer.reported server).rawRows server with
    | error e => exact .inr ⟨e, rfl⟩
    | ok raw =>
      -- The reported name is not in the table, so rows are read only where there are none.
      refine .inl ((exists_readRows_eq_ok_iff.mp ⟨raw, hRows⟩).resolve_right ?_)
      rintro ⟨hListed, -⟩
      exact hUnlisted (hListed _ (List.mem_map_of_mem hMem))

/-- **The rows of all databases are mapped alike.**
1. A Postgres or MySQL result, with the types that the client reports, is given as a whole where it has
   no rows, or the table has the type of every column and every cell decodes, and otherwise not at
   all.  Then there is one raw row for each row, with every column in its place and under its name.
   Otherwise the error is that of the first bad column of the first bad row, for a type that the table
   does not have also where the cell is null.
2. The types that the client reports are those of the result, but for the blank-padded text of
   Postgres.  A result that has it is refused unless it has no rows.
3. A SQLite statement gives one raw row for each of its rows, with every column in its place and under
   its name.
4. After coercion, what an integer column gives for an integer, what any column gives for bytes and
   for null, and what SQLite gives for any value is what the cell is worth.
5. Null is worth null.  An integer is worth itself where 64 bits hold it with a sign, and from there to
   the end of the unsigned integers the nearest double. -/
theorem rows_mapped_alike (server : ServerKind) (answer : ResultSet) :
    let result := answer.reported server
    (((∃ raw, result.rawRows server = .ok raw) ↔ result.rows = [] ∨
        (∀ c ∈ result.columns, Listed server c.typeName) ∧
          ∀ cells ∈ result.rows, ∀ i c, result.columns[i]? = some c →
            ∃ v, Decodes server c (cells.getD i .null) v) ∧
      (∀ raw, result.rawRows server = .ok raw →
        List.Forall₂ (Reads server result.columns) result.rows raw) ∧
      ∀ e, result.rawRows server = .error e → StopsIn server result.columns result.rows e) ∧
    (result = answer ∨ server = .postgres ∧ (∃ c ∈ answer.columns, c.typeName = "BPCHAR") ∧
      (answer.rows = [] ∨ ∃ e, result.rawRows server = .error e)) ∧
    (∀ (s : Sqlite.Select) params raw, s.run params = .ok raw →
      (∀ row ∈ s.rows, row.length = s.columns.length) →
        List.Forall₂ (fun operands row => row.map Prod.fst = s.columns ∧
          row.map Prod.snd = operands.map fun o => (o.value params).raw) s.rows raw) ∧
    ((∀ column low high, integerRange? server column.typeName = some (low, high) →
        ∀ n, low ≤ n → n < high →
          ∃ v, Decodes server column (.int n) v ∧ v.coerce = (Cell.int n).worth) ∧
      (∀ column data v, Decodes server column (.bytes data) v →
        v.coerce = (Cell.bytes data).worth) ∧
      (∀ column, Listed server column.typeName → Decodes server column .null .null) ∧
      ∀ d : Sqlite.Datum, d.raw.coerce = d.cell.worth) ∧
    Cell.null.worth = .null ∧
    ∀ n : Int, -2 ^ 63 ≤ n → n < 2 ^ 64 →
      (n < 2 ^ 63 → ∃ i : Int64, i.toInt = n ∧ (Cell.int n).worth = .int i) ∧
      (2 ^ 63 ≤ n → ∃ x : Double, (Cell.int n).worth = .float x ∧ x.isFinite = true ∧
        x.isNegative = false ∧ ∀ y : Double, y.isFinite = true →
          |(n : ℚ) - x.scaled.value| ≤ |(n : ℚ) - y.scaled.value|) := by
  intro result
  refine ⟨?rows, ?types, ?statements, ⟨?integers, ?bytes, ?nulls, ?values⟩, rfl, ?worth⟩
  case rows =>
    exact ⟨exists_readRows_eq_ok_iff, fun raw => readRows_eq_ok_iff.mp,
      fun e => readRows_eq_error_iff.mp⟩
  case types => exact answer.reported_cases server
  case statements => exact fun s params raw => Sqlite.Select.forall₂_run
  case integers => exact fun column low high hType n => decodes_int hType
  case bytes => exact fun column data v => Decodes.bytes
  case nulls => exact fun column => Listed.decodes_null
  case values => exact Sqlite.Datum.coerce_eq_worth
  case worth => exact fun n => Cell.worth_int

/-- A column without a place in the table is refused where it is null, behind one of the same name that
decodes; the first unsigned integer beyond 64 bits with a sign decodes; and SQLite gives two columns
of one name. -/
theorem rows_mapped_alike_repeated_name :
    (∃ e, (ResultSet.reported .postgres
        ⟨[⟨"n", "INT8"⟩, ⟨"n", "NUMERIC"⟩], [[.int 1, .null]]⟩).rawRows .postgres = .error e ∧
      StopsIn .postgres [⟨"n", "INT8"⟩, ⟨"n", "NUMERIC"⟩] [[.int 1, .null]] e) ∧
    (∃ v, Decodes .mysql ⟨"n", "BIGINT UNSIGNED"⟩ (.int (2 ^ 63)) v ∧
      v.coerce = (Cell.int (2 ^ 63)).worth) ∧
    ∃ raw, Sqlite.Select.run ⟨["n", "n"], [[.datum (.int 1), .parameter 0]], 1⟩ [.null] = .ok raw ∧
      List.Forall₂ (fun (operands : List Sqlite.Operand) row => row.map Prod.fst = ["n", "n"] ∧
        row.map Prod.snd = operands.map fun o => (o.value [.null]).raw)
        [[.datum (.int 1), .parameter 0]] raw := by
  refine ⟨?_, ?_, ?_⟩
  · obtain ⟨⟨-, -, hError⟩, -⟩ :=
      rows_mapped_alike .postgres ⟨[⟨"n", "INT8"⟩, ⟨"n", "NUMERIC"⟩], [[.int 1, .null]]⟩
    exact ⟨_, rfl, hError _ rfl⟩
  · obtain ⟨-, -, -, ⟨hIntegers, -⟩, -⟩ := rows_mapped_alike .mysql ⟨[], []⟩
    exact hIntegers ⟨"n", "BIGINT UNSIGNED"⟩ 0 (2 ^ 64) rfl (2 ^ 63) (by norm_num) (by norm_num)
  · obtain ⟨-, -, hStatements, -⟩ := rows_mapped_alike .mysql ⟨[], []⟩
    exact ⟨_, rfl, hStatements ⟨["n", "n"], [[.datum (.int 1), .parameter 0]], 1⟩ [.null] _ rfl
      (by simp)⟩

/-- Blank-padded text is in the table of Postgres column types, and decodes there, but a result with a
column of it is refused: the client reports the type under a name that the table does not have. -/
theorem blank_padded_text_refused :
    PostgresKind.ofTypeName? "BPCHAR" = some .text ∧
      Decodes .postgres ⟨"v", "BPCHAR"⟩ (.bytes [0x35, 0x20]) (.bytes [0x35, 0x20]) ∧
      (ResultSet.reported .postgres ⟨[⟨"v", "BPCHAR"⟩], [[.bytes [0x35, 0x20]]]⟩).rawRows .postgres =
        .error (.unsupportedColumn "v" "CHAR") :=
  ⟨rfl, ⟨_, rfl, by cbv⟩, rfl⟩

end Source

end SqlMetrics
