import SqlMetrics.Query.Extraction
import SqlMetrics.Param.Evaluation

/-!
# Executing a query

An execution reads the clock, evaluates the parameters, calls the data source once and extracts the
points.  It can be cancelled by a token: whenever the execution is resumed and the token has fired,
it ends as cancelled without looking at what it was waiting for.

The execution is given twice.  As a machine, an `Execution` waits for a command or for the data
source and is resumed with what it waited for; this is what a run of many queries is made of.  As a
function, `Query.execute` runs one query against a shell and a data source.
-/

namespace SqlMetrics

/-- What a call that may fire the token comes to. -/
inductive Reply (α : Type) where
  /-- The call answers; `fires` says that it fires the token in the same step. -/
  | answered (value : α) (fires : Bool)
  /-- The token fires and the call never answers. -/
  | interrupted
  /-- The call crashes the task that made it, and the report is what the run time says of the crash;
  `fires` says that it fires the token in the same step. -/
  | crashed (report : String) (fires : Bool)
deriving Repr

/-- What a data source answers. -/
abbrev SourceAnswer := Except SourceError (List RawRow)

/-- How far an execution has come. -/
inductive Execution where
  /-- It waits for the command of a parameter. -/
  | evaluating (now : Int64) (values : List Param) (command : String) (rest : List Param)
  /-- It waits for the data source. -/
  | querying (now : Int64) (params : List Param)
  /-- It is done. -/
  | finished (extraction : Extraction)

namespace Execution

/-- An execution that ends with an error and has noted nothing. -/
def failed (e : QueryError) : Execution :=
  .finished ⟨[], .error e⟩

/-- Where an execution stands when the evaluation of its parameters does. -/
def ofProgress (now : Int64) : Param.Progress → Execution
  | .finished values => .querying now values
  | .waiting values command rest => .evaluating now values command rest

/-- Starts an execution at a reading of the clock. -/
def start (q : Query) (now : Int64) (cancelled : Bool) : Execution :=
  if cancelled then failed .cancelled else ofProgress now (Param.Progress.advance [] q.params)

/-- Resumes an execution with the outcome of the command that it waits for. -/
def resumeCommand (now : Int64) (values : List Param) (command : String) (rest : List Param)
    (outcome : Shell.Outcome) : Execution :=
  match Param.ofOutcome command outcome with
  | .error e => failed (.params e)
  | .ok value => ofProgress now (Param.Progress.advance (values ++ [value]) rest)

/-- What an execution ends with when the data source answers. -/
def resumeAnswer (q : Query) (now : Int64) : SourceAnswer → Extraction
  | .error e => ⟨[], .error (.source e)⟩
  | .ok rows => q.extract (rows.map Row.ofRaw) now

end Execution

/-- A call of the data source. -/
structure SourceCall where
  sql : String
  params : List Param
deriving DecidableEq, Repr

/-- An execution of one query: the commands and calls it made, and what it came to.  A crash of the
data source leaves no result. -/
structure ExecutionReport where
  commands : List String
  calls : List SourceCall
  result : Option Extraction

/-- Executes a query at a reading of the clock, against a shell and a data source; `cancelled` says
that the token has fired before. -/
def Query.execute (q : Query) (shell : Param.ShellBehaviour)
    (source : SourceCall → Reply SourceAnswer) (now : Int64) (cancelled : Bool) :
    ExecutionReport :=
  if cancelled then ⟨[], [], some ⟨[], .error .cancelled⟩⟩
  else
    let evaluation := Param.evaluate shell q.params
    match evaluation.result with
    | .interrupted => ⟨evaluation.commands, [], some ⟨[], .error .cancelled⟩⟩
    | .failed e => ⟨evaluation.commands, [], some ⟨[], .error (.params e)⟩⟩
    | .values params =>
      let call : SourceCall := ⟨q.sql, params⟩
      let result :=
        match source call with
        | .answered answer _ => some (Execution.resumeAnswer q now answer)
        | .interrupted => some ⟨[], .error .cancelled⟩
        | .crashed _ _ => none
      ⟨evaluation.commands, [call], result⟩

end SqlMetrics
