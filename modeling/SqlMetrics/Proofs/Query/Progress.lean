import SqlMetrics.Query.Execution

/-!
# Progress of an evaluation

The evaluation of parameters is given as a machine that stops before each command
(`Param.Progress.advance`) and as a function that asks a shell (`Param.evaluateFrom`).

- **Descent**: the machine stops with fewer parameters left than it was given.
- **Agreement**: the function is the machine, resumed with what the shell answers.
- **Shells without memory**: where an answer depends on the command only, the commands run before
  do not matter.
-/

namespace SqlMetrics.Param

/-! ## Descent -/

/-- Behind the command at which an evaluation stops, fewer parameters are left. -/
theorem length_lt_of_advance {values params values' : List Param} {command : String}
    {rest : List Param} (h : Progress.advance values params = .waiting values' command rest) :
    rest.length < params.length := by
  induction params generalizing values with
  | nil => cases h
  | cons p params ih =>
    rw [Progress.advance] at h
    split at h
    · cases h
      exact Nat.lt_succ_self _
    · exact Nat.lt_succ_of_lt (ih h)

/-! ## Agreement -/

/-- How an evaluation goes on from where it has stopped. -/
def evaluateOn (shell : ShellBehaviour) (commands : List String) : Progress → Evaluation
  | .finished values => ⟨commands, .values values⟩
  | .waiting values command rest =>
    match shell commands command with
    | none => ⟨commands ++ [command], .interrupted⟩
    | some outcome =>
      match ofOutcome command outcome with
      | .error e => ⟨commands ++ [command], .failed e⟩
      | .ok value => evaluateFrom shell (commands ++ [command]) (values ++ [value]) rest

/-- **Agreement**: to evaluate a list is to go to the next command and on from there. -/
theorem evaluateFrom_eq_evaluateOn (shell : ShellBehaviour) (commands : List String)
    (values params : List Param) :
    evaluateFrom shell commands values params =
      evaluateOn shell commands (Progress.advance values params) := by
  induction params generalizing values with
  | nil => rfl
  | cons p params ih =>
    rw [evaluateFrom, Progress.advance]
    cases hCommand : p.command? with
    | none => exact ih (values ++ [p])
    | some command => rfl

/-! ## Shells without memory -/

/-- A shell whose answer to a command depends on nothing else. -/
def memoryless (answer : String → Shell.Outcome) : ShellBehaviour :=
  fun _ command => some (answer command)

/-- The commands run before an evaluation only stand before its own. -/
theorem evaluateFrom_append (answer : String → Shell.Outcome) (before commands : List String)
    (values params : List Param) :
    evaluateFrom (memoryless answer) (before ++ commands) values params =
      ⟨before ++ (evaluateFrom (memoryless answer) commands values params).commands,
        (evaluateFrom (memoryless answer) commands values params).result⟩ := by
  -- On the parameters left; a command that succeeds goes behind the ones before it.
  induction params generalizing commands values with
  | nil => rfl
  | cons p params ih =>
    rw [evaluateFrom, evaluateFrom]
    cases p.command? with
    | none => exact ih commands (values ++ [p])
    | some command =>
      simp only [memoryless, List.append_assoc]
      cases ofOutcome command (answer command) with
      | error e => rfl
      | ok value => exact ih (commands ++ [command]) (values ++ [value])

end SqlMetrics.Param
