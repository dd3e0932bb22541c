import SqlMetrics.Param
import SqlMetrics.Source.Error

/-!
# SQLite values and statements

SQLite keeps null, integers, doubles, text and blobs; it has no truth values, which are integers
there, and no NaN, which is null.  A parameter is bound as such a value and comes back as a raw one,
where text is bytes like a blob.

A statement here is a selection of given values: columns, and in each row an operand for each of
them, which is a value or a parameter.  The number of parameters given has to be the number of the
statement.
-/

namespace SqlMetrics.Sqlite

open Number (Double)

/-- A value as SQLite keeps it. -/
inductive Datum where
  | null
  | int (n : Int64)
  | real (x : Double)
  /-- Text is kept as bytes, which need not be UTF-8. -/
  | text (data : Bytes)
  | blob (data : Bytes)
deriving DecidableEq, Repr, Inhabited

/-- The value of a double. -/
def Datum.ofDouble (x : Double) : Datum :=
  if x.isNaN then .null else .real x

/-- The value that a parameter is bound as. -/
def Datum.ofParam : Param → Datum
  | .bool b => .int (if b then 1 else 0)
  | .int n => .int n
  | .float x => .ofDouble x
  | .text s => .text (Text.encode s)
  | .null => .null

/-- The value as it comes back. -/
def Datum.raw : Datum → RawValue
  | .null => .null
  | .int n => .int n
  | .real x => .float x
  | .text data | .blob data => .bytes data

/-- What stands for a value in a statement. -/
inductive Operand where
  | datum (d : Datum)
  /-- The parameter with this number, from 0. -/
  | parameter (index : Nat)
deriving DecidableEq, Repr

/-- A statement that selects given values. -/
structure Select where
  columns : List String
  rows : List (List Operand)
  /-- How many parameters the statement has. -/
  parameters : Nat
deriving DecidableEq, Repr

/-- Checks the number of parameters.  Counting the given ones stops at the first that is
too many. -/
def checkCount (given needed : Nat) : Except SqliteError Unit :=
  if given == needed then .ok () else .error (.parameterCount (min given (needed + 1)) needed)

/-- The value of an operand. -/
def Operand.value (params : List Param) : Operand → Datum
  | .datum d => d
  | .parameter index => Datum.ofParam (params.getD index .null)

/-- The rows that a statement gives. -/
def Select.run (s : Select) (params : List Param) : Except SqliteError (List RawRow) :=
  match checkCount params.length s.parameters with
  | .error e => .error e
  | .ok () =>
    .ok (s.rows.map fun row => s.columns.zip (row.map fun o => (o.value params).raw))

/-- The parameter that a raw value can be given as; blobs have to be written out. -/
def boundParam? : RawValue → Option Param
  | .null => some .null
  | .int n => some (.int n)
  | .float x => some (.float x)
  | .bool b => some (.bool b)
  | .text s => some (.text s)
  | .bytes _ => none

/-- Operands for a row of raw values, the first parameter having the number `next`. -/
def operandsFrom (next : Nat) : List RawValue → List Operand
  | [] => []
  | .bytes data :: rest => .datum (.blob data) :: operandsFrom next rest
  | _ :: rest => .parameter next :: operandsFrom (next + 1) rest

/-- Operands for rows of raw values, the first parameter having the number `next`. -/
def operandRowsFrom (next : Nat) : List (List RawValue) → List (List Operand)
  | [] => []
  | row :: rest =>
    operandsFrom next row :: operandRowsFrom (next + (row.filterMap boundParam?).length) rest

/-- The statement that selects rows of raw values, and its parameters. -/
def Select.ofRaw (columns : List String) (rows : List (List RawValue)) : Select × List Param :=
  let params := rows.flatten.filterMap boundParam?
  (⟨columns, operandRowsFrom 0 rows, params.length⟩, params)

/-- What a data source answers with the rows of a statement. -/
def Select.answer (s : Select) (params : List Param) : Except SourceError (List RawRow) :=
  match s.run params with
  | .ok rows => .ok rows
  | .error e => .error (.sqlite e)

end SqlMetrics.Sqlite
