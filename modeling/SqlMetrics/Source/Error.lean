import SqlMetrics.Text.Utf8
import SqlMetrics.Text.Quoted

/-!
# Errors of data sources

What can go wrong between a data source name and the rows of a query, with the texts of the errors
and of what caused them.
-/

namespace SqlMetrics

/-- The server databases. -/
inductive ServerKind where
  | postgres
  | mysql
deriving DecidableEq, Repr

/-- The name of the server database. -/
def ServerKind.name : ServerKind → String
  | .postgres => "postgres"
  | .mysql => "mysql"

/-- What SQLite refuses. -/
inductive SqliteError where
  | cannotOpen (path : String)
  /-- The path has a zero byte at this place. -/
  | zeroByte (index : Nat)
  | noSuchTable (table : String)
  | noSuchColumn (column sql : String) (offset : Nat)
  | syntaxNear (token sql : String) (offset : Nat)
  | illegalToken (token sql : String) (offset : Nat)
  | incomplete
  /-- All columns of a table were asked for without a table. -/
  | noTables
  /-- There is no statement. -/
  | misuse
  | noRows
  | notReadOnly
  | parameterCount (given needed : Nat)
  /-- SQLite refuses for another reason, with the texts of what caused it. -/
  | other (text : String) (further : List String)
  /-- The worker that ran the statement was lost, with the report of that. -/
  | workerLost (report : String)
deriving DecidableEq, Repr

namespace SqliteError

/-- A complaint about a place in a statement. -/
def located (complaint sql : String) (offset : Nat) : String :=
  complaint ++ " in " ++ sql ++ " at offset " ++ toString offset

/-- The text of the error. -/
def message : SqliteError → String
  | .cannotOpen path => "unable to open database file: " ++ path
  | .noSuchTable table => "no such table: " ++ table
  | .zeroByte index => "nul byte found in provided data at position: " ++ toString index
  | .noSuchColumn column sql offset =>
    located ("no such column: " ++ column) sql offset
  | .syntaxNear token sql offset =>
    located ("near \"" ++ token ++ "\": syntax error") sql offset
  | .illegalToken token sql offset =>
    located ("unrecognized token: \"" ++ token ++ "\"") sql offset
  | .noTables => "no tables specified"
  | .misuse => "not an error"
  | .incomplete => "incomplete input"
  | .noRows => "Query returned no rows"
  | .notReadOnly => "Query is not read-only"
  | .parameterCount given needed =>
    "Wrong number of parameters passed to query. Got " ++ toString given ++ ", needed " ++
      toString needed
  | .other text _ => text
  | .workerLost report => report

/-- What is put before the text of the error where it failed a query. -/
def heading : SqliteError → String
  | .workerLost _ => "query worker failed: "
  | _ => "query failed: "

/-- The texts of what caused the error, the nearest first: for what SQLite itself refuses, the one of
the result code behind it, where there is one. -/
def causes : SqliteError → List String
  | .cannotOpen _ => ["Error code 14: Unable to open the database file"]
  | .zeroByte index => [(SqliteError.zeroByte index).message]
  | .misuse => ["Error code 21: Library used incorrectly"]
  | .noSuchTable _ | .noSuchColumn _ _ _ | .syntaxNear _ _ _ | .illegalToken _ _ _ | .incomplete
  | .noTables =>
    ["Error code 1: SQL error or missing database"]
  | .other _ further => further
  | .noRows | .notReadOnly | .parameterCount _ _ | .workerLost _ => []

end SqliteError

/-- What a server database, or the connection to it, refuses. -/
inductive ServerError where
  /-- The pool of connections was closed. -/
  | poolClosed
  /-- The server sent something that makes no sense here. -/
  | protocol (detail : String)
  /-- The server reported an error. -/
  | reported (detail : String)
  /-- The bytes of a text column are not text. -/
  | badText (column : Nat) (cause : Text.Utf8Error)
  /-- A value is not of the kind of its column. -/
  | badValue (column : Nat)
  /-- The server could not be spoken to. -/
  | unreachable
  /-- Something else went wrong, with the texts of what caused it. -/
  | other (text : String) (further : List String)
deriving DecidableEq, Repr

namespace ServerError

/-- The text of the error. -/
def message : ServerError → String
  | .poolClosed => "attempted to acquire a connection on a closed pool"
  | .protocol detail => "encountered unexpected or invalid data: " ++ detail
  | .reported detail => "error returned from database: " ++ detail
  | .badText column cause =>
    "error occurred while decoding column " ++ toString column ++ ": " ++ cause.message
  | .badValue column =>
    "error occurred while decoding column " ++ toString column ++ ": value of another type"
  | .unreachable => "error communicating with database"
  | .other text _ => text

/-- The texts of what caused the error, the nearest first. -/
def causes : ServerError → List String
  | .reported detail => [detail]
  | .badText _ cause => [cause.message]
  | .badValue _ => ["value of another type"]
  | .other _ further => further
  | .poolClosed | .protocol _ | .unreachable => []

end ServerError

/-- Why a data source could not be opened or queried. -/
inductive SourceError where
  /-- The name is not of the form `driver://...`. -/
  | invalidDsn (dsn : String)
  /-- There is no such driver. -/
  | unsupportedDriver (driver : String)
  /-- A SQLite database could not be opened. -/
  | notOpened (path : String) (cause : SqliteError)
  /-- A server database could not be connected to. -/
  | notConnected (kind : ServerKind) (cause : ServerError)
  /-- SQLite, or the worker that it ran in, failed the query. -/
  | sqlite (cause : SqliteError)
  /-- The server failed the query. -/
  | server (cause : ServerError)
  /-- A column has a type that no raw value stands for. -/
  | unsupportedColumn (column typeName : String)
deriving DecidableEq, Repr

namespace SourceError

/-- The text of the error. -/
def message : SourceError → String
  | .invalidDsn dsn => "invalid dsn: " ++ dsn
  | .unsupportedDriver driver => driver ++ ": unsupported driver"
  | .notOpened path cause => "failed to open database " ++ path ++ ": " ++ cause.message
  | .notConnected kind cause => "failed to connect to " ++ kind.name ++ ": " ++ cause.message
  | .sqlite cause => cause.heading ++ cause.message
  | .server cause => "query failed: " ++ cause.message
  | .unsupportedColumn column typeName =>
    "column " ++ Text.quoted column ++ " has unsupported type " ++ typeName ++
      ", cast it to a number or text"

/-- The texts of what caused the error, the nearest first. -/
def causes : SourceError → List String
  | .invalidDsn _ | .unsupportedDriver _ | .unsupportedColumn _ _ => []
  | .notOpened _ cause | .sqlite cause => cause.message :: cause.causes
  | .notConnected _ cause | .server cause => cause.message :: cause.causes

end SourceError

end SqlMetrics
