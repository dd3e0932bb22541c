import SqlMetrics.Template
import SqlMetrics.Param
import SqlMetrics.Source.Error

/-!
# Queries

A query names the SQL to run and says how the rows become metric points: `valueKey` maps a key
template to the column that holds its value, and `defaultValue` maps a key template to the value
that stands in where that column is null.
-/

namespace SqlMetrics

open Number (Double)

/-- A configured query. -/
structure Query where
  /-- Put before every key, with a dot between. -/
  keyPrefix : Option String := none
  /-- The column that holds the value, by key template. -/
  valueKey : KeyMap String := KeyMap.empty
  /-- The value that stands in for null, by key template. -/
  defaultValue : KeyMap Double := KeyMap.empty
  /-- The statement to run. -/
  sql : String := ""
  /-- The positional parameters of the statement. -/
  params : List Param := []
  /-- The service that gets the points; without one, the default service. -/
  service : Option String := none
  /-- The column that holds the time of a row. -/
  time : Option String := none

/-- A measurement with a name and a time. -/
structure MetricPoint where
  name : String
  time : Int64
  value : MetricValue
deriving DecidableEq, Repr

namespace Query

/-- A setting that is given and not empty. -/
def given? (s : Option String) : Option String :=
  s.filter fun text => !text.isEmpty

/-- The service of the query itself. -/
def ownService? (q : Query) : Option String :=
  given? q.service

/-- The service that gets the points of the query. -/
def serviceOr (q : Query) (default : String) : String :=
  q.ownService?.getD default

/-- The name of a point, from its expanded key. -/
def pointName (q : Query) (key : String) : String :=
  match given? q.keyPrefix with
  | some p => p ++ "." ++ key
  | none => key

end Query

/-- Why a query gave no points. -/
inductive QueryError where
  /-- The command of a parameter failed. -/
  | params (cause : CommandError)
  /-- The data source failed. -/
  | source (cause : SourceError)
  /-- The column of a key is not among the columns of the row. -/
  | columnNotFound (column : String)
  /-- The time column is not among the columns of the row. -/
  | timeColumnMissing (column : String)
  /-- The time column holds something else than an integer. -/
  | timeColumnNotInteger (column : String)
  /-- The run was cancelled before the query was done. -/
  | cancelled
deriving DecidableEq, Repr

namespace QueryError

/-- The text of the error. -/
def message : QueryError → String
  | .params cause => cause.message
  | .source cause => cause.message
  | .columnNotFound c => Text.quoted c ++ " not exists in columns"
  | .timeColumnMissing c => "time column " ++ Text.quoted c ++ " not exists in columns"
  | .timeColumnNotInteger c => "failed to convert time column " ++ Text.quoted c ++ " to int64"
  | .cancelled => "query cancelled"

/-- The texts of what caused the error, the nearest first. -/
def causes : QueryError → List String
  | .params cause => cause.message :: cause.causes
  | .source cause => cause.message :: cause.causes
  | .columnNotFound _ | .timeColumnMissing _ | .timeColumnNotInteger _ | .cancelled => []

end QueryError

end SqlMetrics
