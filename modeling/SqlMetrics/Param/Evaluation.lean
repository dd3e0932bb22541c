import SqlMetrics.Param

/-!
# Evaluating parameters

The evaluation of a whole parameter list against a shell.  The shell may answer differently at each
run of the same command, so it is a function of the commands run before as well; it answers `none`
when the caller is interrupted before the command ends.
-/

namespace SqlMetrics.Param

/-- What a command comes to after the commands run before it, if the caller waits for it. -/
abbrev ShellBehaviour := List String → String → Option Shell.Outcome

/-- What an evaluation comes to. -/
inductive EvaluationResult where
  | values (values : List Param)
  | failed (e : CommandError)
  | interrupted
deriving DecidableEq, Repr

/-- An evaluation: the commands it ran, in order, and what it came to. -/
structure Evaluation where
  commands : List String
  result : EvaluationResult
deriving DecidableEq, Repr

/-- Evaluates the rest of a parameter list after some commands and values. -/
def evaluateFrom (shell : ShellBehaviour) (commands : List String) (values : List Param) :
    List Param → Evaluation
  | [] => ⟨commands, .values values⟩
  | p :: rest =>
    match p.command? with
    | none => evaluateFrom shell commands (values ++ [p]) rest
    | some command =>
      match shell commands command with
      | none => ⟨commands ++ [command], .interrupted⟩
      | some outcome =>
        match ofOutcome command outcome with
        | .error e => ⟨commands ++ [command], .failed e⟩
        | .ok value => evaluateFrom shell (commands ++ [command]) (values ++ [value]) rest

/-- Evaluates a parameter list. -/
def evaluate (shell : ShellBehaviour) (params : List Param) : Evaluation :=
  evaluateFrom shell [] [] params

end SqlMetrics.Param
