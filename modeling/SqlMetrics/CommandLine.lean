import SqlMetrics.Number.Numeral
import SqlMetrics.Settings

/-!
# The command line

An option that takes a value is given as `--name value` or `--name=value`, or, where it has a
letter, as `-n value`, `-nvalue` or `-n=value`.  A value that is an argument of its own must not
look like an option.  Options come in any order, each at most once, and nothing else may come.
Arguments are read from left to right; asking for help or for the version ends the reading.

An option that is not given takes its value from a variable of the environment, if it has one that
is set, also to an empty text.
-/

namespace SqlMetrics.CommandLine

/-- The options that take a value. -/
inductive ValueOption where
  | config
  | dsn
  | defaultService
  | maxConcurrency
  | queryFile
  | mackerelApiKey
  | mackerelApiBase
  | exporter
  | logFormat
  | logLevel
deriving DecidableEq, Repr

namespace ValueOption

/-- The options in the order in which they are listed. -/
def all : List ValueOption :=
  [.config, .dsn, .defaultService, .maxConcurrency, .queryFile, .mackerelApiKey, .mackerelApiBase,
    .exporter, .logFormat, .logLevel]

/-- The name of the option, without the dashes. -/
def name : ValueOption → String
  | .config => "config"
  | .dsn => "dsn"
  | .defaultService => "default-service"
  | .maxConcurrency => "max-concurrency"
  | .queryFile => "query-file"
  | .mackerelApiKey => "mackerel-apikey"
  | .mackerelApiBase => "mackerel-apibase"
  | .exporter => "exporter"
  | .logFormat => "log-format"
  | .logLevel => "log-level"

/-- The letter that stands for the option. -/
def letter? : ValueOption → Option Char
  | .config => some 'c'
  | _ => none

/-- The variable of the environment that the option falls back to. -/
def fallback? : ValueOption → Option String
  | .config => none
  | .dsn => some "DSN"
  | .defaultService => some "DEFAULT_SERVICE"
  | .maxConcurrency => some "MAX_CONCURRENCY"
  | .queryFile => some "QUERY_FILE"
  | .mackerelApiKey => some "MACKEREL_APIKEY"
  | .mackerelApiBase => some "MACKEREL_APIBASE"
  | .exporter => some "EXPORTER"
  | .logFormat => some "LOG_FORMAT"
  | .logLevel => some "LOG_LEVEL"

/-- The option with a name. -/
def ofName? (s : String) : Option ValueOption :=
  all.find? fun o => o.name == s

/-- The option with a letter. -/
def ofLetter? (c : Char) : Option ValueOption :=
  all.find? fun o => o.letter? == some c

end ValueOption

/-- Why a command line is refused. -/
inductive UsageError where
  /-- An option has no value. -/
  | missingValue (option : String)
  /-- An option has a value that it must not have. -/
  | badValue (option value : String)
  /-- An option without a value has one. -/
  | unexpectedValue (option value : String)
  /-- An option is given twice. -/
  | repeated (option : String)
  /-- There is no such option, or no option at all. -/
  | unexpected (argument : String)
deriving DecidableEq, Repr

/-- The text of the error. -/
def UsageError.message : UsageError → String
  | .missingValue o => "a value is required for '--" ++ o ++ "' but none was supplied"
  | .badValue o v => "invalid value '" ++ v ++ "' for '--" ++ o ++ "'"
  | .unexpectedValue o v => "unexpected value '" ++ v ++ "' for '--" ++ o ++ "' found"
  | .repeated o => "the argument '--" ++ o ++ "' cannot be used multiple times"
  | .unexpected a => "unexpected argument '" ++ a ++ "' found"

/-! ## Values -/

/-- One more than the greatest limit that can be given. -/
def limitBound : Nat := Number.twoTo 64

/-- Reads a limit: digits, with a plus before them or not. -/
def limit? (s : String) : Option Nat :=
  let digits := match s.toList with
    | '+' :: rest => rest
    | cs => cs
  if digits.isEmpty || !digits.all Char.isDigit then none
  else
    let n := Number.digitsValue digits
    if n < limitBound then some n else none

/-- Whether an option may have a value. -/
def ValueOption.accepts (o : ValueOption) (value : String) : Bool :=
  match o with
  | .config => !value.isEmpty
  | .maxConcurrency => (limit? value).isSome
  | _ => true

/-- What the arguments up to some point have given. -/
structure Given where
  values : List (ValueOption × String) := []
  dryRun : Bool := false
deriving DecidableEq, Repr

/-- The value of an option. -/
def Given.value? (g : Given) (o : ValueOption) : Option String :=
  g.values.lookup o

/-- Adds the value of an option. -/
def Given.add (g : Given) (o : ValueOption) (value : String) : Except UsageError Given :=
  if (g.value? o).isSome then .error (.repeated o.name)
  else if !o.accepts value then .error (.badValue o.name value)
  else .ok { g with values := g.values ++ [(o, value)] }

/-- Notes that a dry run is asked for. -/
def Given.setDryRun (g : Given) : Except UsageError Given :=
  if g.dryRun then .error (.repeated "dry-run") else .ok { g with dryRun := true }

/-! ## Arguments -/

/-- What an argument looks like. -/
inductive Argument where
  /-- Two dashes alone. -/
  | dashes
  /-- Two dashes, a name and perhaps a value. -/
  | long (name : String) (value : Option String)
  /-- One dash and letters. -/
  | short (first : Char) (rest : List Char)
  /-- Anything else. -/
  | plain
deriving DecidableEq, Repr

/-- Tells what an argument looks like. -/
def Argument.ofString (s : String) : Argument :=
  match s.toList with
  | ['-', '-'] => .dashes
  | '-' :: '-' :: rest =>
    let name := rest.takeWhile (· != '=')
    .long (String.ofList name)
      (match rest.drop name.length with
        | _ :: value => some (String.ofList value)
        | [] => none)
  | '-' :: c :: rest => .short c rest
  | _ => .plain

/-- The value that follows a letter within its argument. -/
def attached? : List Char → Option String
  | [] => none
  | '=' :: value => some (String.ofList value)
  | value => some (String.ofList value)

/-- What is to be done about an argument. -/
inductive Action where
  | help
  | version
  | dryRun
  /-- The option has its value. -/
  | set (option : ValueOption) (value : String)
  /-- The next argument is the value of the option. -/
  | takeNext (option : ValueOption)
  /-- Options end here. -/
  | endOptions
  | refuse (e : UsageError)
deriving DecidableEq, Repr

/-- What is to be done about an option and the value within its argument. -/
def Action.ofOption (o : ValueOption) : Option String → Action
  | some value => .set o value
  | none => .takeNext o

/-- What is to be done about an option that has no value. -/
def Action.ofFlag (action : Action) (name : String) : Option String → Action
  | some value => .refuse (.unexpectedValue name value)
  | none => action

/-- What is to be done about an argument. -/
def Action.ofString (s : String) : Action :=
  match Argument.ofString s with
  | .dashes => .endOptions
  | .plain => .refuse (.unexpected s)
  | .long name value =>
    match ValueOption.ofName? name with
    | some o => .ofOption o value
    | none =>
      match name with
      | "help" => .ofFlag .help name value
      | "version" => .ofFlag .version name value
      | "dry-run" => .ofFlag .dryRun name value
      | _ => .refuse (.unexpected s)
  | .short first rest =>
    match ValueOption.ofLetter? first with
    | some o => .ofOption o (attached? rest)
    | none =>
      match first with
      | 'h' => .help
      | 'V' => .version
      | _ => .refuse (.unexpected s)

/-- What the arguments ask for. -/
inductive Reading where
  | help
  | version
  | given (g : Given)
deriving DecidableEq, Repr

/-- Reads the arguments after those that have given something. -/
def read (g : Given) : List String → Except UsageError Reading
  | [] => .ok (.given g)
  | s :: rest =>
    match Action.ofString s with
    | .help => .ok .help
    | .version => .ok .version
    | .dryRun => do read (← g.setDryRun) rest
    | .set o value => do read (← g.add o value) rest
    | .takeNext o =>
      match rest with
      | [] => .error (.missingValue o.name)
      | value :: after =>
        -- An argument that looks like an option is no value.
        if Argument.ofString value == .plain then do read (← g.add o value) after
        else .error (.missingValue o.name)
    | .endOptions =>
      match rest with
      | [] => .ok (.given g)
      | extra :: _ => .error (.unexpected extra)
    | .refuse e => .error e

/-! ## Invocations -/

/-- What the program is to do. -/
structure Invocation where
  /-- The path of the file with settings. -/
  config : Option String
  overrides : Overrides
  dryRun : Bool
deriving DecidableEq, Repr, Inhabited

/-- The variables of the environment. -/
abbrev Environment := List (String × String)

/-- The value of an option that is given, or else that of its variable. -/
def valueOrVariable (g : Given) (env : Environment) (o : ValueOption) :
    Except UsageError (Option String) :=
  match g.value? o with
  | some value => .ok (some value)
  | none =>
    match o.fallback?.bind fun v => env.lookup v with
    | none => .ok none
    | some value => if o.accepts value then .ok (some value) else .error (.badValue o.name value)

/-- What the program is to do after all arguments are read. -/
def Invocation.ofGiven (g : Given) (env : Environment) : Except UsageError Invocation := do
  let value := valueOrVariable g env
  return {
    config := ← value .config
    overrides := {
      dsn := ← value .dsn
      defaultService := ← value .defaultService
      maxConcurrency := (← value .maxConcurrency).bind limit?
      queryFile := ← value .queryFile
      mackerelApiKey := ← value .mackerelApiKey
      mackerelApiBase := ← value .mackerelApiBase
      exporter := ← value .exporter
      logFormat := ← value .logFormat
      logLevel := ← value .logLevel }
    dryRun := g.dryRun }

/-- What a command line asks for. -/
inductive Request where
  | help
  | version
  | invocation (i : Invocation)
deriving DecidableEq, Repr

/-- Reads a command line. -/
def parse (args : List String) (env : Environment) : Except UsageError Request :=
  match read {} args with
  | .error e => .error e
  | .ok .help => .ok .help
  | .ok .version => .ok .version
  | .ok (.given g) => (Invocation.ofGiven g env).map .invocation

end SqlMetrics.CommandLine
