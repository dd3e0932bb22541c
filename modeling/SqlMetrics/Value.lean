import SqlMetrics.KeyMap
import SqlMetrics.Text.Utf8
import SqlMetrics.Number.Numeral
import SqlMetrics.Number.Text

/-!
# Values

The three kinds of values a metric goes through: a `RawValue` is what a database driver hands over,
a `Value` is a column of a row after coercion, and a `MetricValue` is what a point carries.

Coercion is what makes drivers agree: character data arrives as bytes and is read as an integer, or
else as a double, or else kept as text.  All other raw values keep their kind.
-/

namespace SqlMetrics

open Number (Double)

/-- A column value as a driver hands it over.  Character data comes as `bytes`; `text` is for what a
driver has rendered itself, such as a timestamp. -/
inductive RawValue where
  | null
  | bytes (data : Bytes)
  | text (text : String)
  | int (n : Int64)
  | float (x : Double)
  | bool (b : Bool)
deriving DecidableEq, Repr, Inhabited

/-- One result row as a driver hands it over, in column order. -/
abbrev RawRow := List (String × RawValue)

/-- A column value after coercion. -/
inductive Value where
  | null
  | text (text : String)
  | int (n : Int64)
  | float (x : Double)
  | bool (b : Bool)
deriving DecidableEq, Repr, Inhabited

/-- One result row after coercion, by column name. -/
abbrev Row := KeyMap Value

/-- The value that a metric point carries. -/
inductive MetricValue where
  | int (n : Int64)
  | float (x : Double)
  | bool (b : Bool)
  | text (text : String)
deriving DecidableEq, Repr, Inhabited

/-- The word for a truth value. -/
def boolText (b : Bool) : String :=
  if b then "true" else "false"

namespace MetricValue

/-- The text of the value in messages. -/
def display : MetricValue → String
  | .int n => Number.intText n.toInt
  | .float x => x.plain
  | .bool b => boolText b
  | .text s => s

/-- The value as a double; truth values and text have none. -/
def toDouble? : MetricValue → Option Double
  | .int n => some (Double.ofInt n.toInt)
  | .float x => some x
  | .bool _ => none
  | .text _ => none

end MetricValue

namespace Value

/-- The text that is spliced into a metric key.  Null has the empty text. -/
def display : Value → String
  | .null => ""
  | .text s => s
  | .int n => Number.intText n.toInt
  | .float x => x.plain
  | .bool b => boolText b

/-- The value as a metric value, its kind kept; null has none. -/
def toMetric? : Value → Option MetricValue
  | .null => none
  | .text s => some (.text s)
  | .int n => some (.int n)
  | .float x => some (.float x)
  | .bool b => some (.bool b)

/-- Character data as a number if it spells one, and as text otherwise. -/
def ofText (s : String) : Value :=
  match Number.readInt? s.toList with
  | some n => .int (Int64.ofInt n)
  | none =>
    match Number.readDouble? s.toList with
    | some x => .float x
    | none => .text s

end Value

/-- The typed value of a raw one. -/
def RawValue.coerce : RawValue → Value
  | .null => .null
  | .bytes data => Value.ofText (Text.decodeLossy data)
  | .text s => .text s
  | .int n => .int n
  | .float x => .float x
  | .bool b => .bool b

/-- The typed row of a raw one.  Of several columns with one name the last one counts. -/
def Row.ofRaw (raw : RawRow) : Row :=
  KeyMap.ofList (raw.map fun column => (column.1, column.2.coerce))

end SqlMetrics
