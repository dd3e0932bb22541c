import SqlMetrics.Main
import SqlMetrics.Source.Server
import SqlMetrics.Source.Sqlite.Pool
import SqlMetrics.Proofs.Collector.Permits
import SqlMetrics.Proofs.Collector.Progress
import SqlMetrics.Proofs.Collector.Completion
import SqlMetrics.Proofs.Collector.Accounting
import SqlMetrics.Proofs.Collector.Cancellation
import SqlMetrics.Proofs.Collector.Schedule
import SqlMetrics.Proofs.Collector.Duration
import SqlMetrics.Proofs.Collector.Alone
import SqlMetrics.Proofs.Collector.Isolation
import SqlMetrics.Proofs.Text.ByteOrder
import SqlMetrics.Proofs.Query.Candidates
import SqlMetrics.Proofs.Query.Extraction
import SqlMetrics.Proofs.Template.Expansion
import SqlMetrics.Proofs.Number.Text
import SqlMetrics.Proofs.Export.Stdout
import SqlMetrics.Proofs.Query.Names
import SqlMetrics.Proofs.Query.Performance
import SqlMetrics.Proofs.Query.Execution
import SqlMetrics.Proofs.Template.Placeholders
import SqlMetrics.Proofs.Collector.Termination
import SqlMetrics.Proofs.Collector.Clock
import SqlMetrics.Proofs.Collector.Speed
import SqlMetrics.Proofs.Startup.Outcome
import SqlMetrics.Proofs.Value.Coercion
import SqlMetrics.Proofs.Query.Notes
import SqlMetrics.Proofs.Param.Evaluation
import SqlMetrics.Proofs.Number.Integer
import SqlMetrics.Proofs.Export.Body
import SqlMetrics.Proofs.Export.Calls
import SqlMetrics.Proofs.Export.Endpoint
import SqlMetrics.Proofs.Collector.Connections
import SqlMetrics.Proofs.Source.Agreement
import SqlMetrics.Proofs.Startup.DryRun
import SqlMetrics.Proofs.Settings.Layers
import SqlMetrics.Proofs.Settings.Loading
import SqlMetrics.Proofs.Value.Columns
import SqlMetrics.Proofs.Startup.Telling
import SqlMetrics.Proofs.Fetch.Registration
