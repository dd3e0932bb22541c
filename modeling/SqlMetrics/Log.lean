import SqlMetrics.Collector.Machine
import SqlMetrics.Text.Json

/-!
# The log

An entry of the log has a level, the part of the program that it comes from, a message and named
values.  What a run notes on its way becomes entries here; which entries are written is decided
elsewhere.
-/

namespace SqlMetrics.Log

/-- How much an entry matters. -/
inductive Level where
  | trace
  | debug
  | info
  | warn
  | error
deriving DecidableEq, Repr

namespace Level

/-- The levels, from the least to the most important. -/
def all : List Level := [.trace, .debug, .info, .warn, .error]

/-- The rank of the level among all. -/
def rank : Level → Nat
  | .trace => 0
  | .debug => 1
  | .info => 2
  | .warn => 3
  | .error => 4

/-- How a level is called in the log. -/
def name : Level → String
  | .trace => "TRACE"
  | .debug => "DEBUG"
  | .info => "INFO"
  | .warn => "WARN"
  | .error => "ERROR"

end Level

/-- The value of a field. -/
inductive FieldValue where
  | text (s : String)
  | count (n : Nat)
deriving DecidableEq, Repr

/-- An entry of the log. -/
structure Entry where
  level : Level
  /-- The part of the program that the entry comes from, as names with `::` between them. -/
  target : String
  message : String
  fields : List (String × FieldValue)
deriving DecidableEq, Repr

/-! ## The parts of the program -/

/-- The target of the program as a whole. -/
def programTarget : String := "sql_metric_collector"

/-- The target of a part of the program. -/
def partTarget (part : String) : String :=
  programTarget ++ "::" ++ part

/-! ## What a run notes -/

/-- The entry for a template that does not expand. -/
def skipEntry (message : String) (skip : Skip) : Entry where
  level := .info
  target := partTarget "query"
  message := message
  fields := [("error", .text skip.error.message), ("column", .text skip.error.column),
    ("template", .text skip.template), ("sql", .text skip.sql)]

/-- The entry for what an extraction notes. -/
def ofSkip : SkipEvent → Entry
  | .defaultValue skip => skipEntry "skipping default value" skip
  | .valueKey skip => skipEntry "skipping value key" skip

/-- The entry for what a run notes. -/
def ofEvent : Event → Entry
  | .skipped skip => ofSkip skip
  | .exported index service count =>
    { level := .info
      target := partTarget "collector"
      message := "exported metrics"
      fields := [("query", .count index), ("service", .text service), ("metrics", .count count)] }
  | .notStarted started total =>
    { level := .warn
      target := partTarget "collector"
      message := "collection cancelled, remaining queries not started"
      fields := [("started", .count started), ("total", .count total)] }
  | .queryFailed e =>
    { level := .error
      target := partTarget "collector"
      message := "query failed"
      fields := [("error", .text e.message)] }

/-- The entry for a signal that cancels the run. -/
def ofSignal (number : Nat) : Entry where
  level := .warn
  target := partTarget "signals"
  message := "received " ++ Shell.signalName number ++ ", cancelling collection"
  fields := []

/-- The entry for the start of a run. -/
def started (version : String) (queries : Nat) : Entry where
  level := .info
  target := programTarget
  message := "start sql-metric-collector"
  fields := [("version", .text version), ("queries", .count queries)]

/-- The entry for the failure of the whole program. -/
def failed (message : String) : Entry where
  level := .error
  target := programTarget
  message := "failed to execute"
  fields := [("error", .text message)]

/-! ## Lines -/

/-- The value as JSON. -/
def FieldValue.json : FieldValue → String
  | .text s => Text.Json.string s
  | .count n => toString n

/-- The value as people read it. -/
def FieldValue.plain : FieldValue → String
  | .text s => s
  | .count n => toString n

/-- The entry as a JSON object on one line; the message is the first of the fields. -/
def Entry.jsonLine (e : Entry) : String :=
  let fields := ("message", .text e.message) :: e.fields
  "\x7b\"level\":" ++ Text.Json.string e.level.name ++ ",\"fields\":\x7b" ++
    String.intercalate "," (fields.map fun f => Text.Json.string f.1 ++ ":" ++ f.2.json) ++
    "\x7d\x7d"

/-- The entry as a line for people. -/
def Entry.plainLine (e : Entry) : String :=
  String.intercalate " " (e.level.name :: e.message :: e.fields.map fun f =>
    f.1 ++ "=" ++ f.2.plain)

end SqlMetrics.Log
