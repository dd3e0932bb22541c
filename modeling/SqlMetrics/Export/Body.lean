import SqlMetrics.Query
import SqlMetrics.Text.Json

/-!
# Batches as JSON

The body in which a batch is posted: a JSON array with one object for each point, in the order of
the batch, each holding the name, the time and the value.  A value keeps its kind: integers have no
point, finite doubles always have a point or an exponent, text is a string.
-/

namespace SqlMetrics

/-- The value as JSON; a double that is no finite number is `null`. -/
def MetricValue.json : MetricValue → String
  | .int n => Number.intText n.toInt
  | .float x => x.json
  | .bool b => boolText b
  | .text s => Text.Json.string s

/-- The point as a JSON object. -/
def MetricPoint.json (p : MetricPoint) : String :=
  "\x7b\"name\":" ++ Text.Json.string p.name ++ ",\"time\":" ++ Number.intText p.time.toInt ++
    ",\"value\":" ++ p.value.json ++ "\x7d"

/-- The batch as a JSON array. -/
def batchJson (points : List MetricPoint) : String :=
  "[" ++ ",".intercalate (points.map MetricPoint.json) ++ "]"

end SqlMetrics
