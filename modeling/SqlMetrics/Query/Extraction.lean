import SqlMetrics.Query

/-!
# From rows to points

Extraction walks the rows in order, and for each row first expands the default templates and then
goes through the key templates, both in ascending order.  Each pair of a row and a key template has
one outcome: a point, a note that its template does not expand, nothing at all because its column
is null and no default has its key, or the error that ends the extraction.

The walk is a list of steps, one for each note about a default and one for each pair; running it
collects the points and the notes up to the first error.
-/

namespace SqlMetrics

open Number (Double)

/-- A note that a template of a query does not expand on a row. -/
structure Skip where
  error : TemplateError
  template : String
  sql : String
deriving DecidableEq, Repr

/-- What extraction notes on its way. -/
inductive SkipEvent where
  | defaultValue (skip : Skip)
  | valueKey (skip : Skip)
deriving DecidableEq, Repr

/-- What comes of one pair of a row and a key template. -/
inductive EntryOutcome where
  /-- A point. -/
  | point (p : MetricPoint)
  /-- The template does not expand. -/
  | skipped (skip : Skip)
  /-- The column is null and no default has the key. -/
  | absent
  /-- The extraction ends with an error. -/
  | failed (e : QueryError)
deriving DecidableEq, Repr

/-- What extraction comes to: the notes on the way, and the points or the error. -/
structure Extraction where
  skips : List SkipEvent
  result : Except QueryError (List MetricPoint)

namespace Query

/-- Each default template with what it expands to on a row. -/
def expandedDefaults (q : Query) (row : Row) :
    List (String × Double × Except TemplateError String) :=
  q.defaultValue.toList.map fun entry => (entry.1, entry.2, Template.expand entry.1 row)

/-- The defaults of a row by expanded key.  Of templates with one expansion the greatest counts. -/
def defaults (q : Query) (row : Row) : KeyMap Double :=
  KeyMap.ofList ((q.expandedDefaults row).filterMap fun entry =>
    match entry.2.2 with
    | .ok key => some (key, entry.2.1)
    | .error _ => none)

/-- The notes about default templates that do not expand on a row. -/
def defaultSkips (q : Query) (row : Row) : List Skip :=
  (q.expandedDefaults row).filterMap fun entry =>
    match entry.2.2 with
    | .ok _ => none
    | .error e => some ⟨e, entry.1, q.sql⟩

/-- The time of the points of a row: the row's own when the query has a time column, and otherwise
the time at which the query started. -/
def resolveTime (q : Query) (row : Row) (now : Int64) : Except QueryError Int64 :=
  match given? q.time with
  | none => .ok now
  | some column =>
    match row.get? column with
    | some (.int t) => .ok t
    | some _ => .error (.timeColumnNotInteger column)
    | none => .error (.timeColumnMissing column)

/-- The value of a key: the column's own, or else the default of the key. -/
def pointValue? (defaults : KeyMap Double) (key : String) (value : Value) : Option MetricValue :=
  match value.toMetric? with
  | some v => some v
  | none => (defaults.get? key).map .float

/-- What comes of a row and a key template with its column. -/
def entryOutcome (q : Query) (row : Row) (now : Int64) (defaults : KeyMap Double)
    (template column : String) : EntryOutcome :=
  match Template.expand template row with
  | .error e => .skipped ⟨e, template, q.sql⟩
  | .ok key =>
    match row.get? column with
    | none => .failed (.columnNotFound column)
    | some value =>
      match pointValue? defaults key value with
      | none => .absent
      | some v =>
        match q.resolveTime row now with
        | .error e => .failed e
        | .ok time => .point ⟨q.pointName key, time, v⟩

/-- What comes of a row and each key template. -/
def rowOutcomes (q : Query) (row : Row) (now : Int64) : List EntryOutcome :=
  q.valueKey.toList.map fun entry => q.entryOutcome row now (q.defaults row) entry.1 entry.2

/-- One step of the walk. -/
inductive ExtractionStep where
  | defaultSkipped (skip : Skip)
  | entry (outcome : EntryOutcome)
deriving DecidableEq, Repr

/-- The steps over one row. -/
def rowSteps (q : Query) (row : Row) (now : Int64) : List ExtractionStep :=
  (q.defaultSkips row).map .defaultSkipped ++ (q.rowOutcomes row now).map .entry

/-- Runs steps up to the first error. -/
def runSteps : List ExtractionStep → Extraction
  | [] => ⟨[], .ok []⟩
  | .defaultSkipped skip :: rest =>
    let r := runSteps rest
    { r with skips := .defaultValue skip :: r.skips }
  | .entry (.skipped skip) :: rest =>
    let r := runSteps rest
    { r with skips := .valueKey skip :: r.skips }
  | .entry .absent :: rest => runSteps rest
  | .entry (.failed e) :: _ => ⟨[], .error e⟩
  | .entry (.point p) :: rest =>
    let r := runSteps rest
    { r with result := r.result.map (p :: ·) }

/-- The points of typed rows. -/
def extract (q : Query) (rows : List Row) (now : Int64) : Extraction :=
  runSteps (rows.flatMap fun row => q.rowSteps row now)

end Query

end SqlMetrics
