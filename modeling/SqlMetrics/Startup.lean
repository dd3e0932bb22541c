import SqlMetrics.Collector.Report
import SqlMetrics.CommandLine.Help
import SqlMetrics.Host
import SqlMetrics.Log

/-!
# Starting up

An invocation goes through stages: the settings are read from a file, overridden and checked, the
log is opened, the settings that are URLs are resolved one after another, and the queries are read,
decoded and parsed.  There a dry run ends.  Otherwise the exporter is set up, the data source is
opened, and the collector runs.

A stage is a `Staged` value: what it does to the world, in order, and what it comes to.  Stages are
put one after another by `bind`, so the first that fails is the last one that has any effect.
-/

namespace SqlMetrics.Startup

open CommandLine (Invocation)

/-- Why an invocation fails. -/
inductive Failure where
  /-- The settings cannot be read, or are not good. -/
  | settings (cause : SettingsError)
  /-- What a setting refers to cannot be fetched. -/
  | loading (cause : SettingsError)
  /-- The standard input cannot be read as text; the detail is what the run time says of it. -/
  | input (detail : String)
  /-- The queries cannot be read from their location. -/
  | reading (cause : FetchError)
  /-- What was read from the location is not text. -/
  | decoding (cause : Text.Utf8Error)
  /-- The text is no list of queries; the detail is what its reader says of it. -/
  | parsing (detail : String)
  | exporter (cause : BuildError)
  | source (cause : SourceError)
  | collection (cause : CollectorError)
deriving DecidableEq, Repr

namespace Failure

/-- The text of the failure, which is the one of its cause. -/
def message : Failure → String
  | .settings cause => cause.message
  | .loading cause => cause.message
  | .input detail => detail
  | .reading cause => cause.message
  | .decoding cause => cause.message
  | .parsing detail => detail
  | .exporter cause => cause.message
  | .source cause => cause.message
  | .collection cause => cause.message

/-- The texts of what caused the cause, the nearest first. -/
def causes : Failure → List String
  | .settings cause => cause.causes
  | .loading cause => cause.causes
  | .input _ => []
  | .reading cause => cause.causes
  | .decoding _ => []
  | .parsing _ => []
  | .exporter cause => cause.causes
  | .source cause => cause.causes
  | .collection cause => cause.causes

end Failure

/-- What an invocation does to the world around it. -/
inductive Effect where
  /-- The file with the settings is read. -/
  | settingsRead (path : String)
  /-- The log is opened. -/
  | logOpened (format level : String)
  /-- A driver is called for a setting. -/
  | fetched (url : Url)
  /-- The standard input is read. -/
  | inputRead
  /-- The queries are read from a location. -/
  | queriesRead (location : String)
  /-- An exporter is set up. -/
  | exporterBuilt (name : String)
  /-- A data source is opened. -/
  | sourceOpened (source : DataSource)
  /-- The collector does something outside itself. -/
  | collected (e : Collector.External)
  /-- Text is written to the standard output. -/
  | printed (text : String)
  /-- An entry goes to the log. -/
  | logged (entry : Log.Entry)

/-! ## Stages -/

/-- What a stage does to the world, in order, and what it comes to. -/
structure Staged (α : Type) where
  effects : List Effect
  result : Except Failure α

namespace Staged

variable {α β : Type}

/-- The stage that does nothing. -/
def done (a : α) : Staged α := ⟨[], .ok a⟩

/-- One stage after another, if the first does not fail. -/
def andThen (x : Staged α) (f : α → Staged β) : Staged β :=
  match x.result with
  | .error e => ⟨x.effects, .error e⟩
  | .ok a =>
    let y := f a
    ⟨x.effects ++ y.effects, y.result⟩

instance : Monad Staged where
  pure := done
  bind := andThen

/-- The stage that only does something. -/
def act (e : Effect) : Staged Unit := ⟨[e], .ok ()⟩

/-- The stage that only comes to something. -/
def ofExcept {ε : Type} (failure : ε → Failure) (r : Except ε α) : Staged α :=
  ⟨[], r.mapError failure⟩

end Staged

/-! ## Settings and queries -/

/-- The settings before they are overridden. -/
def baseSettings (host : Host) : Option String → Staged Settings
  | none => pure {}
  | some path => do
    Staged.act (.settingsRead path)
    Staged.ofExcept .settings (Settings.ofFile host.wording.settings host.files path)

/-- The settings after they are overridden and checked. -/
def checkedSettings (host : Host) (i : Invocation) : Staged Settings := do
  let base ← baseSettings host i.config
  let merged := base.merge i.overrides
  Staged.ofExcept .settings merged.validate
  return merged

/-- The settings after those that are URLs are resolved. -/
def resolvedSettings (registry : Registry) (s : Settings) : Staged Settings :=
  let loading := s.load registry
  ⟨loading.fetched.map .fetched,
    match loading.result with
    | .error e => .error (.loading e)
    | .ok () => .ok loading.settings⟩

/-- A document with queries, as it has been read. -/
inductive Document where
  /-- The standard input is read as text. -/
  | text (content : String)
  /-- A location gives bytes. -/
  | bytes (content : Bytes)
deriving DecidableEq, Repr

/-- The text of a document.  Only one that was read as bytes is left to be decoded. -/
def Document.decode : Document → Except Text.Utf8Error String
  | .text content => .ok content
  | .bytes content => Text.decode content

/-- The document with the queries. -/
def queryDocument (host : Host) (registry : Registry) (location : String) : Staged Document :=
  if location.isEmpty then do
    Staged.act .inputRead
    let content ← Staged.ofExcept .input host.inputText
    return .text content
  else do
    Staged.act (.queriesRead location)
    let content ← Staged.ofExcept .reading (registry.readLocation host.files location)
    return .bytes content

/-- The queries that a text lists. -/
def parsedQueries (host : Host) (text : String) : Staged (List Query) :=
  Staged.ofExcept (fun _ => .parsing (host.wording.queries text)) (QueryDocument.parse text)

/-- The queries at a location, or on the standard input. -/
def queriesAt (host : Host) (registry : Registry) (location : String) : Staged (List Query) := do
  let document ← queryDocument host registry location
  let text ← Staged.ofExcept .decoding document.decode
  parsedQueries host text

/-- What a run starts from. -/
structure Plan where
  settings : Settings
  queries : List Query

/-- The stages that a dry run and every other run go through. -/
def prepare (host : Host) (i : Invocation) : Staged Plan := do
  let checked ← checkedSettings host i
  -- From here on failures go to the log.
  Staged.act (.logOpened checked.logFormat checked.logLevel)
  let registry := Registry.builtin host.files
  let settings ← resolvedSettings registry checked
  let queries ← queriesAt host registry settings.queryFile
  return ⟨settings, queries⟩

/-- What a dry run tells. -/
def Plan.summary (p : Plan) : String :=
  CommandLine.programName ++ " v" ++ CommandLine.programVersion ++ "\n" ++
    "exporter:        " ++ p.settings.exporter ++ "\n" ++
    "default service: " ++ p.settings.defaultService ++ "\n" ++
    "max concurrency: " ++ toString p.settings.maxConcurrency ++ "\n" ++
    "queries:         " ++ toString p.queries.length ++ "\n" ++
    "Dry run mode, config validated, not running.\n"

/-! ## Running the collector -/

/-- The signal that made a run stop: the first that one of its commands sent to the program. -/
def cancellingSignal? (host : Host) (externals : List Collector.External) : Option Nat :=
  externals.findSome? fun
    | .command _ command => (host.shell command).parentSignals.head?
    | _ => none

/-- The entries of the log for what a run noted, with one for the signal that made it stop. -/
def collectionLog (host : Host) (t : Collector.Timeline) : List Log.Entry :=
  let entries := t.report.events.map Log.ofEvent
  match t.notedBeforeFiring, cancellingSignal? host t.state.externals with
  -- The signal is noted at the moment at which the token fires.
  | some n, some signal => entries.take n ++ Log.ofSignal signal :: entries.drop n
  | _, _ => entries

/-- What is done for something that the collector does outside itself: an exporter to the standard
output prints what it delivers. -/
def externalEffects (exporter : Exporter) (e : Collector.External) : List Effect :=
  match e with
  | .delivered _ _ points => [.collected e, .printed (exporter.printed points)]
  | _ => [.collected e]

/-- What the collector comes to.  A run that does not return would not come to anything; it counts
as cancelled. -/
def collectionResult (t : Collector.Timeline) : Except Failure Unit :=
  (t.report.result.getD (.error .cancelled)).mapError .collection

/-- Runs the collector. -/
def collect (host : Host) (p : Plan) (exporter : Exporter) (source : DataSource) : Staged Unit :=
  let cfg : Collector.Settings := ⟨p.settings.maxConcurrency, p.settings.defaultService⟩
  let t := Collector.Timeline.run cfg (host.world source exporter) p.queries
  ⟨t.state.externals.flatMap (externalEffects exporter) ++ (collectionLog host t).map .logged,
    collectionResult t⟩

/-- Sets up the exporter. -/
def builtExporter (s : Settings) : Staged Exporter := do
  Staged.act (.exporterBuilt s.exporter)
  Staged.ofExcept .exporter (Exporter.build s.exporter s.mackerelApiKey s.mackerelApiBase)

/-- Opens the data source. -/
def openedSource (host : Host) (s : Settings) : Staged DataSource := do
  let source ← Staged.ofExcept .source (DataSource.ofDsn s.dsn)
  Staged.act (.sourceOpened source)
  Staged.ofExcept .source (source.openWith host.files host.connect)
  return source

/-- The stages that only a run goes through that is not dry. -/
def start (host : Host) (p : Plan) : Staged Unit := do
  let exporter ← builtExporter p.settings
  let source ← openedSource host p.settings
  Staged.act (.logged (Log.started CommandLine.programVersion p.queries.length))
  collect host p exporter source

/-- All stages of an invocation. -/
def run (host : Host) (i : Invocation) : Staged Unit := do
  let plan ← prepare host i
  if i.dryRun then Staged.act (.printed plan.summary) else start host plan

end SqlMetrics.Startup
