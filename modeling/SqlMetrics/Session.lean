import SqlMetrics.Log.Filter
import SqlMetrics.Startup

/-!
# Sessions

What somebody who invokes the program gets to see: the exit code, the standard output, and on the
error output the log, or a line about a failure from before the log was opened.
-/

namespace SqlMetrics

open CommandLine (UsageError)
open Startup (Effect Failure Staged)

/-- What an invocation of the program comes to. -/
inductive Session where
  /-- A text was asked for. -/
  | answered (text : String)
  /-- The command line makes no sense. -/
  | misused (e : UsageError)
  /-- The stages were gone through. -/
  | ran (filter : Log.Filter) (outcome : Staged Unit)

namespace Session

/-- The variable of the environment that a filter of the log may be written in. -/
def filterVariable : String := "RUST_LOG"

/-- The level that the log was opened with. -/
def logLevel? (effects : List Effect) : Option String :=
  effects.findSome? fun
    | .logOpened _ level => some level
    | _ => none

/-- The format that the log was opened with. -/
def logFormat? (effects : List Effect) : Option String :=
  effects.findSome? fun
    | .logOpened format _ => some format
    | _ => none

/-- Invokes the program. -/
def start (host : Host) (args : List String) : Session :=
  match CommandLine.parse args host.environment with
  | .error e => .misused e
  | .ok .help => .answered (CommandLine.helpText host.environment)
  | .ok .version => .answered CommandLine.versionText
  | .ok (.invocation i) =>
    let outcome := Startup.run host i
    .ran (Log.Filter.choose (host.environment.lookup filterVariable)
      ((logLevel? outcome.effects).getD "")) outcome

/-- The failure of the stages. -/
def failure? : Session → Option Failure
  | .ran _ outcome =>
    match outcome.result with
    | .error e => some e
    | .ok () => none
  | _ => none

/-- The exit code. -/
def exitCode : Session → Nat
  | .answered _ => 0
  | .misused _ => 2
  | .ran _ outcome =>
    match outcome.result with
    | .ok () => 0
    | .error _ => 1

/-- What is done to the world. -/
def effects : Session → List Effect
  | .ran _ outcome => outcome.effects
  | _ => []

/-- The text on the standard output. -/
def output : Session → String
  | .answered text => text
  | .misused _ => ""
  | .ran _ outcome =>
    String.join (outcome.effects.filterMap fun
      | .printed text => some text
      | _ => none)

/-- The line on the error output about a failure for which there is no log. -/
def complaint? (s : Session) : Option String :=
  match s with
  | .answered _ => none
  | .misused e => some ("error: " ++ e.message ++ "\n")
  | .ran _ outcome =>
    match outcome.result, logFormat? outcome.effects with
    | .error e, none => some (CommandLine.programName ++ ": " ++ e.message ++ "\n")
    | _, _ => none

/-- Everything that goes to the log, the failure of the program last. -/
def entries (s : Session) : List Log.Entry :=
  let noted := s.effects.filterMap fun
    | .logged entry => some entry
    | _ => none
  match s.failure?, logFormat? s.effects with
  | some e, some _ => noted ++ [Log.failed e.message]
  | _, _ => noted

/-- The entries of the log that are written. -/
def log (s : Session) : List Log.Entry :=
  match s with
  | .ran filter _ => s.entries.filter filter.passes
  | _ => []

/-- The text on the error output. -/
def errorOutput (s : Session) : String :=
  let line : Log.Entry → String :=
    if logFormat? s.effects == some "json" then Log.Entry.jsonLine else Log.Entry.plainLine
  s.complaint?.getD "" ++ String.join (s.log.map fun e => line e ++ "\n")

end Session

end SqlMetrics
