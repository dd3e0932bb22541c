import SqlMetrics.CommandLine

/-!
# The help of the command line

The help lists every option with the name of its value, what it is for, and the variable that it
falls back to with the value that the variable has.  The value of a secret is not shown.  The
explanations stand in one column, two blanks after the longest option.
-/

namespace SqlMetrics.CommandLine

/-- The name of the program. -/
def programName : String := "sql-metric-collector"

/-- The version of the program. -/
def programVersion : String := "0.1.0"

/-- The answer to who asks for the version. -/
def versionText : String := programName ++ " " ++ programVersion ++ "\n"

/-- What the program does. -/
def summary : String :=
  "Runs templated SQL queries and posts the result rows as service metrics"

namespace ValueOption

/-- How the value of the option is called. -/
def valueName : ValueOption → String
  | .config => "CONFIG"
  | .dsn => "DSN"
  | .defaultService => "NAME"
  | .maxConcurrency => "NUMBER"
  | .queryFile => "FILENAME"
  | .mackerelApiKey => "APIKEY"
  | .mackerelApiBase => "URL"
  | .exporter => "BACKEND"
  | .logFormat => "FORMAT"
  | .logLevel => "LEVEL"

/-- What the option is for. -/
def purpose : ValueOption → String
  | .config => "Config file path (TOML)"
  | .dsn => "Data source name, e.g. sqlite:///var/lib/app.db"
  | .defaultService => "Service that receives metrics of queries without their own"
  | .maxConcurrency => "Maximum number of concurrent queries"
  | .queryFile => "Query YAML file (default: stdin)"
  | .mackerelApiKey => "Mackerel API key"
  | .mackerelApiBase => "Mackerel API base URL"
  | .exporter => "Exporter backend [mackerel, stdout]"
  | .logFormat => "Log format [console, json]"
  | .logLevel => "Log level [trace, debug, info, warn, error]"

/-- Whether the value of the option must not be shown. -/
def isSecret : ValueOption → Bool
  | .mackerelApiKey => true
  | _ => false

/-- The variable that the option falls back to, with its value. -/
def variableText (o : ValueOption) (env : Environment) : String :=
  match o.fallback? with
  | none => ""
  | some name =>
    let value := if o.isSecret then "" else "=" ++ (env.lookup name).getD ""
    " [env: " ++ name ++ value ++ "]"

end ValueOption

/-- A line of the list of options. -/
structure HelpLine where
  letter : Option Char
  usage : String
  purpose : String

/-- The lines of the list of options. -/
def helpLines (env : Environment) : List HelpLine :=
  ValueOption.all.map (fun o =>
      ⟨o.letter?, "--" ++ o.name ++ " <" ++ o.valueName ++ ">", o.purpose ++ o.variableText env⟩) ++
    [⟨none, "--dry-run", "Validate config and queries, print resolved settings, don't run"⟩,
      ⟨some 'h', "--help", "Print help"⟩,
      ⟨some 'V', "--version", "Print version"⟩]

/-- The text of a line, with the option filled up to a width. -/
def HelpLine.text (l : HelpLine) (width : Nat) : String :=
  let letter := match l.letter with
    | some c => "-" ++ c.toString ++ ", "
    | none => "    "
  "  " ++ letter ++ l.usage ++ String.ofList (List.replicate (width + 2 - l.usage.length) ' ') ++
    l.purpose ++ "\n"

/-- The help. -/
def helpText (env : Environment) : String :=
  let lines := helpLines env
  let width := (lines.map fun l => l.usage.length).foldl max 0
  summary ++ "\n\nUsage: " ++ programName ++ " [OPTIONS]\n\nOptions:\n" ++
    String.join (lines.map fun l => l.text width)

end SqlMetrics.CommandLine
