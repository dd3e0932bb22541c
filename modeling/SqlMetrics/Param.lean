import SqlMetrics.Value
import SqlMetrics.Text.Blank
import SqlMetrics.Text.Quoted
import SqlMetrics.Shell.Outcome

/-!
# Query parameters

A query has positional parameters.  A text parameter that is entirely `$(...)`, with no line break
inside, stands for the trimmed output of the command between the parentheses; every other parameter
stands for itself.  Commands are run one after another, in the order of the parameters, and the
first one that fails ends the evaluation.

Evaluation is written as a machine, because a caller may be interrupted between two commands: a
`Progress` is either finished or waits for the outcome of one command.
-/

namespace SqlMetrics

open Number (Double)

/-- A positional parameter of a query. -/
inductive Param where
  | bool (b : Bool)
  | int (n : Int64)
  | float (x : Double)
  | text (text : String)
  | null
deriving DecidableEq, Repr, Inhabited

/-- Why the command of a parameter gave no value. -/
inductive CommandError where
  /-- The command could not be started. -/
  | notStarted (command : String) (cause : Shell.StartFailure)
  /-- The command ended badly, with this trimmed error output. -/
  | failed (command : String) (status : Shell.ExitStatus) (stderr : String)
deriving DecidableEq, Repr

namespace CommandError

/-- The text of the error. -/
def message : CommandError → String
  | .notStarted command cause =>
    "failed to run parameter command " ++ Text.quoted command ++ ": " ++ cause.message
  | .failed command status stderr =>
    "parameter command " ++ Text.quoted command ++ " failed (" ++ status.message ++ ")" ++
      (if stderr.isEmpty then "" else ": " ++ stderr)

/-- The texts of what caused the error, the nearest first. -/
def causes : CommandError → List String
  | .notStarted _ cause => [cause.message]
  | .failed _ _ _ => []

end CommandError

namespace Param

/-- The command in a text that is entirely `$(...)` on one line. -/
def commandChars? : List Char → Option (List Char)
  | '$' :: '(' :: rest =>
    if rest.getLast? == some ')' && !rest.dropLast.contains '\n' then some rest.dropLast else none
  | _ => none

/-- The command that a parameter stands for, if it stands for one. -/
def command? : Param → Option String
  | .text s => (commandChars? s.toList).map String.ofList
  | _ => none

/-- How far the evaluation of parameters has come. -/
inductive Progress where
  /-- All parameters have their values. -/
  | finished (values : List Param)
  /-- The parameters before the command's have these values; `rest` comes after it. -/
  | waiting (values : List Param) (command : String) (rest : List Param)
deriving DecidableEq, Repr

/-- Goes on up to the next command. -/
def Progress.advance (values : List Param) : List Param → Progress
  | [] => .finished values
  | p :: rest =>
    match p.command? with
    | some command => .waiting values command rest
    | none => Progress.advance (values ++ [p]) rest

/-- The value that the outcome of a command gives to its parameter. -/
def ofOutcome (command : String) : Shell.Outcome → Except CommandError Param
  | .notStarted cause => .error (.notStarted command cause)
  | .ended status stdout stderr =>
    if status.success then .ok (.text (Text.trim (Text.decodeLossy stdout)))
    else .error (.failed command status (Text.trim (Text.decodeLossy stderr)))

end Param

end SqlMetrics
