import SqlMetrics.Fetch
import SqlMetrics.Text.Quoted
import SqlMetrics.Toml.Document

/-!
# Settings

The nine settings of a collection.  They start from defaults or a file, are overridden by values
from elsewhere, and are checked; then the four of them that may be written as a URL are replaced by
what the URL refers to, one after another.
-/

namespace SqlMetrics

/-- The settings of a collection. -/
structure Settings where
  /-- The name of the data source. -/
  dsn : String := ""
  /-- The service of queries that have none of their own. -/
  defaultService : String := ""
  /-- How many queries may run at a time. -/
  maxConcurrency : Nat := 5
  /-- Where the queries are; standard input if it is empty. -/
  queryFile : String := ""
  mackerelApiKey : String := ""
  mackerelApiBase : String := ""
  exporter : String := "mackerel"
  logFormat : String := "console"
  logLevel : String := "info"
deriving DecidableEq, Repr, Inhabited

/-- Why settings cannot be used. -/
inductive SettingsError where
  /-- The file cannot be read. -/
  | notRead (path : String) (cause : FileError)
  /-- The file holds no settings. -/
  | notParsed (path detail : String)
  /-- A setting that has to be given is not. -/
  | missing (field : String)
  /-- A setting has a value that it must not have. -/
  | invalid (field value : String)
  /-- What a setting refers to cannot be fetched. -/
  | fetch (cause : FetchError)
deriving DecidableEq, Repr

namespace SettingsError

/-- The text of the error. -/
def message : SettingsError → String
  | .notRead path cause => "failed to read config " ++ path ++ ": " ++ cause.message
  | .notParsed path detail => "failed to parse config " ++ path ++ ": " ++ detail
  | .missing field => field ++ " is required"
  | .invalid field value => "invalid " ++ field ++ ": " ++ Text.quoted value
  | .fetch cause => cause.message

/-- The texts of what caused the error, the nearest first. -/
def causes : SettingsError → List String
  | .notRead _ cause => [cause.message]
  | .notParsed _ detail => [detail]
  | .fetch cause => cause.message :: cause.causes
  | .missing _ | .invalid _ _ => []

end SettingsError

/-! ## Files -/

namespace Settings

/-- The text under a key, or a default if there is no such key. -/
def textUnder (t : Toml.Table) (key default : String) : Option String :=
  match Toml.lookUp t key with
  | none => some default
  | some (.string s) => some s
  | some _ => none

/-- The natural number under a key, or a default if there is no such key. -/
def natUnder (t : Toml.Table) (key : String) (default : Nat) : Option Nat :=
  match Toml.lookUp t key with
  | none => some default
  | some (.integer n) => if 0 ≤ n.toInt then some n.toInt.toNat else none
  | some _ => none

/-- The settings in a table.  Keys that are no settings are not looked at. -/
def ofTable? (t : Toml.Table) : Option Settings := do
  let d : Settings := {}
  return {
    dsn := ← textUnder t "dsn" d.dsn
    defaultService := ← textUnder t "default-service" d.defaultService
    maxConcurrency := ← natUnder t "max-concurrency" d.maxConcurrency
    queryFile := ← textUnder t "query-file" d.queryFile
    mackerelApiKey := ← textUnder t "mackerel-apikey" d.mackerelApiKey
    mackerelApiBase := ← textUnder t "mackerel-apibase" d.mackerelApiBase
    exporter := ← textUnder t "exporter" d.exporter
    logFormat := ← textUnder t "log-format" d.logFormat
    logLevel := ← textUnder t "log-level" d.logLevel }

/-- The settings that a text holds.  The path is for the error, and so are the words that the reader
of such texts has for what is wrong with one. -/
def parse (wording : String → String) (path text : String) : Except SettingsError Settings :=
  match (Toml.parse? text).bind ofTable? with
  | some s => .ok s
  | none => .error (.notParsed path (wording text))

/-- The settings in a file. -/
def ofFile (wording : String → String) (files : Files) (path : String) :
    Except SettingsError Settings :=
  match files.readText path with
  | .error e => .error (.notRead path e)
  | .ok text => parse wording path text

end Settings

/-! ## Overrides -/

/-- Values that override settings.  A text that is empty, and a limit of zero, override nothing. -/
structure Overrides where
  dsn : Option String := none
  defaultService : Option String := none
  maxConcurrency : Option Nat := none
  queryFile : Option String := none
  mackerelApiKey : Option String := none
  mackerelApiBase : Option String := none
  exporter : Option String := none
  logFormat : Option String := none
  logLevel : Option String := none
deriving DecidableEq, Repr, Inhabited

/-- A text, or the one that overrides it. -/
def overrideText (old : String) : Option String → String
  | some new => if new.isEmpty then old else new
  | none => old

/-- A limit, or the one that overrides it. -/
def overrideLimit (old : Nat) : Option Nat → Nat
  | some new => if new == 0 then old else new
  | none => old

namespace Settings

/-- The settings with the overrides in place. -/
def merge (s : Settings) (o : Overrides) : Settings where
  dsn := overrideText s.dsn o.dsn
  defaultService := overrideText s.defaultService o.defaultService
  maxConcurrency := overrideLimit s.maxConcurrency o.maxConcurrency
  queryFile := overrideText s.queryFile o.queryFile
  mackerelApiKey := overrideText s.mackerelApiKey o.mackerelApiKey
  mackerelApiBase := overrideText s.mackerelApiBase o.mackerelApiBase
  exporter := overrideText s.exporter o.exporter
  logFormat := overrideText s.logFormat o.logFormat
  logLevel := overrideText s.logLevel o.logLevel

/-! ## Checks -/

/-- The formats of the log. -/
def logFormats : List String := ["console", "json"]

/-- The levels of the log, from the most to the least talkative. -/
def logLevels : List String := ["trace", "debug", "info", "warn", "error"]

/-- Checks what can be checked before anything is fetched. -/
def validate (s : Settings) : Except SettingsError Unit :=
  if s.dsn.isEmpty then .error (.missing "dsn")
  else if s.maxConcurrency == 0 then .error (.invalid "max-concurrency" "0")
  else if !logFormats.contains s.logFormat then .error (.invalid "log-format" s.logFormat)
  else if !logLevels.contains s.logLevel then .error (.invalid "log-level" s.logLevel)
  else .ok ()

/-! ## Indirect settings -/

/-- A setting that may be written as a URL: how to get it and how to set it. -/
structure Indirect where
  get : Settings → String
  set : Settings → String → Settings

/-- The settings that may be written as a URL, in the order in which they are resolved. -/
def indirect : List Indirect :=
  [⟨dsn, fun s v => { s with dsn := v }⟩,
    ⟨defaultService, fun s v => { s with defaultService := v }⟩,
    ⟨mackerelApiKey, fun s v => { s with mackerelApiKey := v }⟩,
    ⟨mackerelApiBase, fun s v => { s with mackerelApiBase := v }⟩]

/-- What resolving settings comes to. -/
structure Loading where
  /-- The URLs that drivers were called with, in order. -/
  fetched : List Url
  /-- The settings, resolved up to the first that fails. -/
  settings : Settings
  result : Except SettingsError Unit

/-- Resolves settings one after another up to the first that fails.  Those before it stay
resolved. -/
def loadFields (r : Registry) : List Indirect → Settings → Loading
  | [], s => ⟨[], s, .ok ()⟩
  | field :: rest, s =>
    -- A value that no driver is for stays as it is, and no driver is called.
    let called := (r.registeredUrl? (field.get s)).toList
    match r.resolve (field.get s) with
    | .error e => ⟨called, s, .error (.fetch e)⟩
    | .ok v =>
      let later := loadFields r rest (field.set s v)
      { later with fetched := called ++ later.fetched }

/-- Resolves the settings that may be written as a URL. -/
def load (s : Settings) (r : Registry) : Loading :=
  loadFields r indirect s

end Settings

end SqlMetrics
