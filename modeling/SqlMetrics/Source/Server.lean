import SqlMetrics.Param
import SqlMetrics.Source.Column

/-!
# Server databases

A statement is prepared by the server, gets its parameters, is executed and answers with rows.  The
server may report an error at each of these steps, and before them when it is connected to.
-/

namespace SqlMetrics.Source

/-- A parameter as it reaches a server. -/
structure Bound where
  typeName : String
  value : Value
deriving DecidableEq, Repr

/-- How a parameter is bound.  Null goes as a text that is not there, and MySQL has its truth values
as small integers. -/
def bind (server : ServerKind) : Param → Bound
  | .bool b =>
    match server with
    | .postgres => ⟨"BOOL", .bool b⟩
    | .mysql => ⟨"TINY", .int (if b then 1 else 0)⟩
  | .int n =>
    match server with
    | .postgres => ⟨"INT8", .int n⟩
    | .mysql => ⟨"LONGLONG", .int n⟩
  | .float x =>
    match server with
    | .postgres => ⟨"FLOAT8", .float x⟩
    | .mysql => ⟨"DOUBLE", .float x⟩
  | .text s => ⟨textType, .text s⟩
  | .null => ⟨textType, .null⟩
where
  /-- The type of text parameters. -/
  textType : String :=
    match server with
    | .postgres => "TEXT"
    | .mysql => "STRING"

/-- An error that a server reports. -/
inductive ServerReport where
  | postgres (message : String)
  | mysql (number state message : String)
deriving DecidableEq, Repr

/-- The text of a reported error. -/
def ServerReport.text : ServerReport → String
  | .postgres message => message
  | .mysql number state message => number ++ " (" ++ state ++ "): " ++ message

/-- What a server does with a statement. -/
inductive StatementAnswer where
  /-- It refuses to prepare the statement. -/
  | notPrepared (report : ServerReport)
  /-- It fails the statement while executing it, or after some of its rows. -/
  | failed (report : ServerReport)
  | rows (result : ResultSet)
deriving Repr

/-- A statement that was sent: the parameters that the server got, and what the data
source answers. -/
structure Statement where
  bound : List Bound
  answer : Except SourceError (List RawRow)
deriving Repr

/-- Sends a statement with its parameters to a server that gives an answer to it. -/
def send (server : ServerKind) (params : List Param) : StatementAnswer → Statement
  | .notPrepared report => ⟨[], .error (.server (.reported report.text))⟩
  | .failed report => ⟨params.map (bind server), .error (.server (.reported report.text))⟩
  | .rows result => ⟨params.map (bind server), result.rawRows server⟩

/-- The error of a connection that the server refuses. -/
def refused (server : ServerKind) (report : ServerReport) : SourceError :=
  .notConnected server (.reported report.text)

end SqlMetrics.Source
