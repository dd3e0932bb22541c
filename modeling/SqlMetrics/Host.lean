import SqlMetrics.CommandLine
import SqlMetrics.Collector.Timeline
import SqlMetrics.Export.Exporter
import SqlMetrics.Query.Document
import SqlMetrics.Shell.Machine
import SqlMetrics.Source.Dsn
import SqlMetrics.Source.Sqlite.Reader

/-!
# Hosts

A host is everything that the program finds around itself when it is invoked: the environment, the
files, the standard input, a shell, databases, a network and a clock.  Each of them is a function or
a value of its own, so that it can be said what the program would have done on a host that differs
in one of them.

The libraries that read text and documents belong to the host as far as their words go: which texts
they refuse is fixed, and what they say of one that they refuse is not.
-/

namespace SqlMetrics

/-- What is said of a text that is refused. -/
structure Wording where
  /-- What the run time says of a standard input that is not UTF-8.  It may pass on what the decoder
  says, or say only that the stream did not contain valid UTF-8. -/
  input : Text.Utf8Error → String
  /-- What is said of a text that holds no settings. -/
  settings : String → String
  /-- What is said of a text that lists no queries. -/
  queries : String → String

/-- Words that say no more of a document than what kind of fault it has. -/
def Wording.brief : Wording where
  input := Text.Utf8Error.message
  settings := fun _ => "TOML parse error"
  queries := fun text =>
    match QueryDocument.parse text with
    | .error fault => fault.message
    | .ok _ => ""

/-- What the program finds around itself. -/
structure Host where
  environment : CommandLine.Environment
  files : Files
  /-- What reading the standard input to its end comes to. -/
  input : Except FileError Bytes
  wording : Wording
  /-- What running a command comes to. -/
  shell : String → Shell.Execution
  /-- What connecting to a database server comes to. -/
  connect : ServerKind → String → Except ServerError Unit
  /-- What a data source that has been opened answers. -/
  database : DataSource → SourceCall → SourceAnswer
  /-- What comes of sending a request. -/
  network : Mackerel.Request → Mackerel.Delivery
  /-- The reading of the clock. -/
  clock : Int64

namespace Host

/-- What reading the standard input as text comes to.  That it cannot be read counts before what is
wrong with what was read. -/
def inputText (host : Host) : Except String String :=
  match host.input with
  | .error e => .error e.message
  | .ok content => (Text.decode content).mapError host.wording.input

/-- What a collector finds around itself when it works for a program on the host.  Nothing takes
time there, and the token fires only when a command sends the program a signal. -/
def world (host : Host) (source : DataSource) (exporter : Exporter) : Collector.World where
  shell := fun command => (host.shell command).seen?
  source := fun call => ⟨0, .answered (host.database source call) false⟩
  exporter := fun service points =>
    ⟨0, .answered (exporter.exportBatch host.network service points) false⟩
  clock := fun _ => host.clock
  fireAt := none

/-- The host without a network: no server can be reached, and the databases have no tables.  Its
standard input can be read. -/
def offline (environment : CommandLine.Environment) (files : Files) (input : Bytes)
    (clock : Int64) : Host where
  environment := environment
  files := files
  input := .ok input
  wording := .brief
  shell := Shell.executeIn environment files
  connect := fun _ _ => .error .unreachable
  database := fun source call =>
    match source with
    | .sqlite _ => Sqlite.query call.sql call.params
    | .server _ _ => .error (.server .unreachable)
  network := fun request => .error (.sending request.url ["client error (Connect)"])
  clock := clock

end Host

end SqlMetrics
