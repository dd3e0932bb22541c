import SqlMetrics.Files
import SqlMetrics.Source.Error

/-!
# Data source names

A data source name is a driver and what the driver gets, with `://` between them.  It names a SQLite
database, in memory or in a file, or a server database, which is given the whole name as a URL.
-/

namespace SqlMetrics

/-- What a data source name says. -/
structure Dsn where
  driver : String
  rest : String
deriving DecidableEq, Repr

/-- Splits characters at the first `://`. -/
def splitDriver : List Char → Option (List Char × List Char)
  | ':' :: '/' :: '/' :: rest => some ([], rest)
  | c :: rest => (splitDriver rest).map fun (driver, after) => (c :: driver, after)
  | [] => none

/-- Reads a data source name. -/
def Dsn.parse (s : String) : Except SourceError Dsn :=
  match splitDriver s.toList with
  | some (driver, rest) => .ok ⟨String.ofList driver, String.ofList rest⟩
  | none => .error (.invalidDsn s)

/-- What a data source name refers to. -/
inductive DataSource where
  | sqlite (path : String)
  | server (kind : ServerKind) (url : String)
deriving DecidableEq, Repr

namespace DataSource

/-- The data source that a name refers to. -/
def ofDsn (s : String) : Except SourceError DataSource :=
  match Dsn.parse s with
  | .error e => .error e
  | .ok dsn =>
    match dsn.driver with
    | "sqlite" | "sqlite3" => .ok (.sqlite dsn.rest)
    | "postgres" | "postgresql" => .ok (.server .postgres s)
    | "mysql" => .ok (.server .mysql s)
    | other => .error (.unsupportedDriver other)

/-- The path that stands for a database in memory. -/
def memoryPath : String := ":memory:"

/-- The longest path that SQLite takes. -/
def longestPath : Nat := 512

/-- Opens a SQLite database.  The file need not be there, and is not looked into; only the directory
it is in has to be there.  An empty path stands for a database that nobody else sees. -/
def openSqlite (files : Files) (path : String) : Except SourceError Unit :=
  let bytes := Text.encode path
  if path == memoryPath || path.isEmpty then .ok ()
  else if bytes.contains 0 then .error (.notOpened path (.zeroByte (bytes.findIdx (· == 0))))
  else if bytes.length ≤ longestPath && files.canHold bytes then .ok ()
  else .error (.notOpened path (.cannotOpen path))

/-- Opens a data source, given the files and what comes of connecting to a server. -/
def openWith (files : Files) (connect : ServerKind → String → Except ServerError Unit) :
    DataSource → Except SourceError Unit
  | .sqlite path => openSqlite files path
  | .server kind url =>
    match connect kind url with
    | .ok () => .ok ()
    | .error e => .error (.notConnected kind e)

end DataSource

end SqlMetrics
