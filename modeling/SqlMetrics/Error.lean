import SqlMetrics.Collector.Machine
import SqlMetrics.Settings

/-!
# Errors

The errors of the program's own types, and those from elsewhere, under one head: what an error says,
and what it names as its cause.
-/

namespace SqlMetrics

/-- An error of one of the program's own types, or one from elsewhere. -/
inductive AnyError where
  | collector (e : CollectorError)
  | query (e : QueryError)
  | command (e : CommandError)
  | source (e : SourceError)
  | exporting (e : ExportError)
  | building (e : BuildError)
  | fetching (e : FetchError)
  | settings (e : SettingsError)
  /-- An error from elsewhere: its text, and those of what caused it. -/
  | foreign (text : String) (further : List String)
deriving DecidableEq, Repr

namespace AnyError

/-- The text of the error. -/
def message : AnyError → String
  | .collector e => e.message
  | .query e => e.message
  | .command e => e.message
  | .source e => e.message
  | .exporting e => e.message
  | .building e => e.message
  | .fetching e => e.message
  | .settings e => e.message
  | .foreign text _ => text

/-- The texts of what caused the error, the nearest first. -/
def causes : AnyError → List String
  | .collector e => e.causes
  | .query e => e.causes
  | .command e => e.causes
  | .source e => e.causes
  | .exporting e => e.causes
  | .building e => e.causes
  | .fetching e => e.causes
  | .settings e => e.causes
  | .foreign _ further => further

/-- What an error names as its cause.  What is behind an error from elsewhere is not followed. -/
def cause? : AnyError → Option AnyError
  | .collector (.query _ cause) => some (.query cause)
  | .collector (.exporting _ cause) => some (.exporting cause)
  | .collector (.crashed report) => some (.foreign report [])
  | .collector .cancelled => none
  | .query (.params cause) => some (.command cause)
  | .query (.source cause) => some (.source cause)
  | .query (.columnNotFound _) | .query (.timeColumnMissing _)
  | .query (.timeColumnNotInteger _) | .query .cancelled => none
  | .command (.notStarted _ cause) => some (.foreign cause.message [])
  | .command (.failed _ _ _) => none
  | .source (.notOpened _ cause) | .source (.sqlite cause) =>
    some (.foreign cause.message cause.causes)
  | .source (.notConnected _ cause) | .source (.server cause) =>
    some (.foreign cause.message cause.causes)
  | .source (.invalidDsn _) | .source (.unsupportedDriver _)
  | .source (.unsupportedColumn _ _) => none
  | .exporting (.http cause) => some (.foreign cause.message cause.causes)
  | .exporting (.write cause) => some (.foreign cause [])
  | .exporting (.status _ _) | .exporting (.invalidUrl _)
  | .exporting (.invalidValue _ _) => none
  | .building (.refused cause) => some (.exporting cause)
  | .building (.unknown _) => none
  | .fetching (.file _ cause) => some (.foreign cause.message [])
  | .fetching (.duplicate _) | .fetching (.notRegistered _) | .fetching (.invalidUrl _) => none
  | .settings (.notRead _ cause) => some (.foreign cause.message [])
  | .settings (.notParsed _ detail) => some (.foreign detail [])
  | .settings (.fetch cause) => some (.fetching cause)
  | .settings (.missing _) | .settings (.invalid _ _) => none
  | .foreign _ _ => none

end AnyError

end SqlMetrics
