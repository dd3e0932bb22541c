import SqlMetrics.Export.Mackerel
import SqlMetrics.Export.Stdout

/-!
# Choosing an exporter

An exporter is chosen by its name; names are taken as they are written.
-/

namespace SqlMetrics

/-- An exporter that is set up. -/
inductive Exporter where
  | stdout
  | mackerel (client : Mackerel.Client)
deriving DecidableEq, Repr

namespace Exporter

/-- The names of the exporters. -/
def names : List String := ["mackerel", "stdout"]

/-- Sets up the exporter of a name. -/
def build (name apiKey apiBase : String) : Except BuildError Exporter :=
  match name with
  | "stdout" => .ok .stdout
  | "mackerel" =>
    match Mackerel.Client.setUp apiKey apiBase with
    | .ok client => .ok (.mackerel client)
    | .error e => .error (.refused e)
  | other => .error (.unknown other)

/-- What comes of exporting a batch, given what the network does with requests.  The standard output
takes everything. -/
def exportBatch (e : Exporter) (network : Mackerel.Request → Mackerel.Delivery) (service : String)
    (points : List MetricPoint) : Except ExportError Unit :=
  match e with
  | .stdout => (Stdout.block points).map fun _ => ()
  | .mackerel client => (client.exportBatch network service points).2

/-- What a batch that is exported adds to the standard output. -/
def printed (e : Exporter) (points : List MetricPoint) : String :=
  match e with
  | .stdout => (Stdout.block points).toOption.getD ""
  | .mackerel _ => ""

end Exporter

end SqlMetrics
