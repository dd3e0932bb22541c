import SqlMetrics.Value
import SqlMetrics.Source.Error
import SqlMetrics.Source.Instant

/-!
# Columns of server databases

A server database answers with columns that have a name and the name of a type, and with rows of
cells.  Each kind of server has a table of the column types that it can hand over, by the kind of
value they hold; a column of any other type is refused when a row is read, also where it is null.

A result is read row by row and from left to right, and is complete or not given at all: the first
bad column of the first bad row is the error of the whole result.
-/

namespace SqlMetrics.Source

open Number (Double twoTo)

/-- A cell of a result, as it comes over the wire. -/
inductive Cell where
  | null
  | int (n : Int)
  | float (x : Double)
  | bool (b : Bool)
  | bytes (data : Bytes)
  /-- A point in time, in microseconds since the start of 1970 in UTC. -/
  | instant (micros : Int)
deriving DecidableEq, Repr, Inhabited

/-- What the columns of a Postgres server hold. -/
inductive PostgresKind where
  | bool
  | int2
  | int4
  | int8
  | float4
  | float8
  | text
  | bytea
  | timestamp
  | timestampTz
deriving DecidableEq, Repr

/-- What the columns of a MySQL server hold. -/
inductive MySqlKind where
  | bool
  | int
  | unsignedInt
  | float
  | double
  | bytes
  | dateTime
  | timestamp
deriving DecidableEq, Repr

/-- The kind of a Postgres column type. -/
def PostgresKind.ofTypeName? : String → Option PostgresKind
  | "BOOL" => some .bool
  | "INT2" => some .int2
  | "INT4" => some .int4
  | "INT8" => some .int8
  | "FLOAT4" => some .float4
  | "FLOAT8" => some .float8
  | "TEXT" | "VARCHAR" | "BPCHAR" | "NAME" | "UNKNOWN" => some .text
  | "BYTEA" => some .bytea
  | "TIMESTAMP" => some .timestamp
  | "TIMESTAMPTZ" => some .timestampTz
  | _ => none

/-- The kind of a MySQL column type. -/
def MySqlKind.ofTypeName? : String → Option MySqlKind
  | "BOOLEAN" => some .bool
  | "TINYINT" | "SMALLINT" | "MEDIUMINT" | "INT" | "BIGINT" => some .int
  | "TINYINT UNSIGNED" | "SMALLINT UNSIGNED" | "MEDIUMINT UNSIGNED" | "INT UNSIGNED"
  | "BIGINT UNSIGNED" => some .unsignedInt
  | "FLOAT" => some .float
  | "DOUBLE" => some .double
  | "CHAR" | "VARCHAR" | "TINYTEXT" | "TEXT" | "MEDIUMTEXT" | "LONGTEXT" | "ENUM" | "BINARY"
  | "VARBINARY" | "TINYBLOB" | "BLOB" | "MEDIUMBLOB" | "LONGBLOB" => some .bytes
  | "DATETIME" => some .dateTime
  | "TIMESTAMP" => some .timestamp
  | _ => none

/-- Whether an integer has a two's complement form of `bits` bits. -/
def fitsSigned (bits : Nat) (n : Int) : Bool :=
  -(twoTo (bits - 1) : Int) ≤ n && n < twoTo (bits - 1)

/-- An unsigned integer as a raw value: one that no 64-bit integer stands for becomes the nearest
double. -/
def ofUnsigned (n : Nat) : RawValue :=
  if n < twoTo 63 then .int (Int64.ofNat n) else .float (Double.ofInt n)

/-- A signed integer of so many bits, if it is one. -/
def signed? (bits : Nat) (n : Int) : Option RawValue :=
  if fitsSigned bits n then some (.int (Int64.ofInt n)) else none

/-- What is wrong with a cell. -/
inductive CellError where
  /-- Its bytes are not text. -/
  | badText (cause : Text.Utf8Error)
  /-- It is not of the kind of its column. -/
  | misfit
deriving DecidableEq, Repr

/-- A cell that has to be of the kind of its column. -/
def fitting : Option RawValue → Except CellError RawValue
  | some v => .ok v
  | none => .error .misfit

/-- The raw value of a cell in a Postgres column. -/
def PostgresKind.rawValue (kind : PostgresKind) (cell : Cell) : Except CellError RawValue :=
  match kind, cell with
  | _, .null => .ok .null
  | .bool, .bool b => .ok (.bool b)
  | .int2, .int n => fitting (signed? 16 n)
  | .int4, .int n => fitting (signed? 32 n)
  | .int8, .int n => fitting (signed? 64 n)
  | .float4, .float x => .ok (.float x.roundToSingle)
  | .float8, .float x => .ok (.float x)
  | .text, .bytes data =>
    match Text.decode data with
    | .ok _ => .ok (.bytes data)
    | .error e => .error (.badText e)
  | .bytea, .bytes data => .ok (.bytes data)
  | .timestamp, .instant micros => .ok (.text (instantText micros))
  | .timestampTz, .instant micros => .ok (.text (instantText micros))
  | _, _ => .error .misfit

/-- The raw value of a cell in a MySQL column.  A truth value is a small integer there. -/
def MySqlKind.rawValue (kind : MySqlKind) (cell : Cell) : Except CellError RawValue :=
  match kind, cell with
  | _, .null => .ok .null
  | .bool, .bool b => .ok (.bool b)
  | .bool, .int n => .ok (.bool (n != 0))
  | .int, .int n => fitting (signed? 64 n)
  | .unsignedInt, .int n =>
    if 0 ≤ n && n < twoTo 64 then .ok (ofUnsigned n.toNat) else .error .misfit
  | .float, .float x => .ok (.float x.roundToSingle)
  | .double, .float x => .ok (.float x)
  | .bytes, .bytes data => .ok (.bytes data)
  | .dateTime, .instant micros => .ok (.text (instantText micros))
  | .timestamp, .instant micros => .ok (.text (instantText micros))
  | _, _ => .error .misfit

/-- The name under which a server reports a column type: Postgres says `CHAR` for blank-padded
text. -/
def reportedType (server : ServerKind) (typeName : String) : String :=
  match server, typeName with
  | .postgres, "BPCHAR" => "CHAR"
  | _, name => name

/-- How the cells of a column of a type are read, if the server's table has the type. -/
def cellReader? (server : ServerKind) (typeName : String) :
    Option (Cell → Except CellError RawValue) :=
  match server with
  | .postgres => (PostgresKind.ofTypeName? typeName).map PostgresKind.rawValue
  | .mysql => (MySqlKind.ofTypeName? typeName).map MySqlKind.rawValue

/-- A column of a result. -/
structure Column where
  name : String
  typeName : String
deriving DecidableEq, Repr

/-- What a server answers to a statement: columns, and a cell for each column in each row. -/
structure ResultSet where
  columns : List Column
  rows : List (List Cell)
deriving DecidableEq, Repr

/-- The error of a cell in the column with a number. -/
def CellError.toSourceError (index : Nat) : CellError → SourceError
  | .badText cause => .server (.badText index cause)
  | .misfit => .server (.badValue index)

/-- Reads one cell of the column with a number. -/
def readCell (server : ServerKind) (index : Nat) (column : Column) (cell : Cell) :
    Except SourceError RawValue :=
  match cellReader? server column.typeName with
  | none => .error (.unsupportedColumn column.name column.typeName)
  | some read =>
    match read cell with
    | .ok v => .ok v
    | .error e => .error (e.toSourceError index)

/-- Reads the columns of a row from the one with a number on. -/
def readCells (server : ServerKind) (index : Nat) : List Column → List Cell →
    Except SourceError RawRow
  | [], _ => .ok []
  | column :: columns, cells =>
    match readCell server index column (cells.headD .null) with
    | .error e => .error e
    | .ok v =>
      match readCells server (index + 1) columns cells.tail with
      | .error e => .error e
      | .ok row => .ok ((column.name, v) :: row)

/-- Reads all rows of a result. -/
def readRows (server : ServerKind) (columns : List Column) : List (List Cell) →
    Except SourceError (List RawRow)
  | [] => .ok []
  | cells :: rest =>
    match readCells server 0 columns cells with
    | .error e => .error e
    | .ok row =>
      match readRows server columns rest with
      | .error e => .error e
      | .ok rows => .ok (row :: rows)

/-- The raw rows of a result. -/
def ResultSet.rawRows (server : ServerKind) (result : ResultSet) :
    Except SourceError (List RawRow) :=
  readRows server result.columns result.rows

end SqlMetrics.Source
