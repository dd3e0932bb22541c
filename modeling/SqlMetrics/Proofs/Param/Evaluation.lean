import SqlMetrics.Proofs.Query.Commands

/-!
# The course of an evaluation

Parameters are evaluated one after another, and each of them has one turn.  The shell is arbitrary:
what it answers to a command may depend on all commands run before.

- **Values**: `Param.Obtains` says which values parameters get from a shell.
- **Ways to end**: `Param.evaluateFrom_cases` says how an evaluation ends, and after which commands.
- **The course**: `evaluation_all_or_nothing` puts these together.
-/

namespace SqlMetrics

namespace Param

/-! ## Values -/

/-- The values that parameters get from a shell which has run some commands before. -/
inductive Obtains (shell : ShellBehaviour) : List String → List Param → List Param → Prop
  | nil {ran : List String} : Obtains shell ran [] []
  | kept {ran : List String} {p : Param} {params values : List Param} :
      (∀ c, ¬ p.StandsFor c) → Obtains shell ran params values →
      Obtains shell ran (p :: params) (p :: values)
  | replaced {ran : List String} {p value : Param} {c : String} {o : Shell.Outcome}
      {params values : List Param} : p.StandsFor c → shell ran c = some o → Ends c o (.ok value) →
      Obtains shell (ran ++ [c]) params values → Obtains shell ran (p :: params) (value :: values)

section

variable {shell : ShellBehaviour} {ran : List String} {params values before rest : List Param}

theorem Obtains.length_eq (h : Obtains shell ran params values) :
    values.length = params.length := by
  induction h with
  | nil => rfl
  | kept _ _ ih => rw [List.length_cons, List.length_cons, ih]
  | replaced _ _ _ _ ih => rw [List.length_cons, List.length_cons, ih]

/-- A parameter has its value in its own place: it is kept, or replaced by what its command gives
when it is run behind the commands of the parameters before it. -/
theorem Obtains.exists_value (h : Obtains shell ran params values) {p : Param} {after : List Param}
    (hSplit : params = before ++ p :: after) :
    ∃ value, values[before.length]? = some value ∧ ((∀ c, ¬ p.StandsFor c) → value = p) ∧
      ∀ c, p.StandsFor c → ∃ o, shell (ran ++ commandsOf before) c = some o ∧
        Ends c o (.ok value) := by
  -- On the turns: the parameter has its turn at once, or it is one of those behind the first.
  induction h generalizing before with
  | nil => simp at hSplit
  | @kept ran first params values hOther _ ih =>
    cases before with
    | nil =>
      obtain ⟨rfl, rfl⟩ := List.cons.inj hSplit
      exact ⟨first, rfl, fun _ => rfl, fun c hStands => absurd hStands (hOther c)⟩
    | cons b before =>
      obtain ⟨rfl, hRest⟩ := List.cons.inj hSplit
      rw [commandsOf_cons_of_not_standsFor hOther]
      exact ih hRest
  | @replaced ran first value command o params values hStands hShell hEnds _ ih =>
    cases before with
    | nil =>
      obtain ⟨rfl, rfl⟩ := List.cons.inj hSplit
      refine ⟨value, rfl, fun hOther => absurd hStands (hOther command), fun c hSame => ?_⟩
      obtain rfl := hStands.unique hSame
      exact ⟨o, by rwa [append_commandsOf_nil], hEnds⟩
    | cons b before =>
      obtain ⟨rfl, hRest⟩ := List.cons.inj hSplit
      rw [commandsOf_cons_of_standsFor hStands, List.append_cons]
      exact ih hRest

/-- Behind parameters that get their values, an evaluation goes on with these values, and it has run
their commands. -/
theorem Obtains.evaluateFrom_append {values' : List Param} (h : Obtains shell ran before values') :
    evaluateFrom shell ran values (before ++ rest) =
      evaluateFrom shell (ran ++ commandsOf before) (values ++ values') rest := by
  -- On the turns; a command that is run and its value move to what has been done before.
  induction h generalizing values with
  | nil => simp [commandsOf]
  | kept hOther _ ih =>
    rw [List.cons_append, evaluateFrom_cons_of_not_standsFor hOther, ih,
      commandsOf_cons_of_not_standsFor hOther, List.append_assoc, List.singleton_append]
  | replaced hStands hShell hEnds _ ih =>
    rw [List.cons_append, evaluateFrom_cons_of_ok hStands hShell hEnds, ih,
      commandsOf_cons_of_standsFor hStands]
    simp only [List.append_assoc, List.singleton_append]

/-! ## Ways to end -/

/-- A command is the next one behind parameters that get their values. -/
structure Reaches (shell : ShellBehaviour) (ran : List String) (params before : List Param)
    (c : String) : Prop where
  split : ∃ p after, params = before ++ p :: after ∧ p.StandsFor c
  obtains : ∃ values, Obtains shell ran before values

theorem Reaches.kept {p : Param} {c : String} (hOther : ∀ c, ¬ p.StandsFor c)
    (h : Reaches shell ran params before c) : Reaches shell ran (p :: params) (p :: before) c := by
  obtain ⟨⟨next, after, rfl, hStands⟩, values, hObtains⟩ := h
  exact ⟨⟨next, after, rfl, hStands⟩, p :: values, .kept hOther hObtains⟩

theorem Reaches.replaced {p value : Param} {command c : String} {o : Shell.Outcome}
    (hStands : p.StandsFor command) (hShell : shell ran command = some o)
    (hEnds : Ends command o (.ok value)) (h : Reaches shell (ran ++ [command]) params before c) :
    Reaches shell ran (p :: params) (p :: before) c := by
  obtain ⟨⟨next, after, rfl, hNext⟩, values, hObtains⟩ := h
  exact ⟨⟨next, after, rfl, hNext⟩, value :: values, .replaced hStands hShell hEnds hObtains⟩

theorem reaches_first {p : Param} {c : String} (h : p.StandsFor c) :
    Reaches shell ran (p :: rest) [] c :=
  ⟨⟨p, rest, rfl, h⟩, [], .nil⟩

theorem Reaches.evaluateFrom_of_none {c : String} (h : Reaches shell ran params before c)
    (hShell : shell (ran ++ commandsOf before) c = none) :
    evaluateFrom shell ran values params = ⟨ran ++ commandsOf before ++ [c], .interrupted⟩ := by
  obtain ⟨⟨p, after, rfl, hStands⟩, values', hObtains⟩ := h
  rw [hObtains.evaluateFrom_append, evaluateFrom_cons_of_interrupted hStands hShell]

theorem Reaches.evaluateFrom_of_error {c : String} {o : Shell.Outcome} {e : CommandError}
    (h : Reaches shell ran params before c) (hShell : shell (ran ++ commandsOf before) c = some o)
    (hEnds : Ends c o (.error e)) :
    evaluateFrom shell ran values params = ⟨ran ++ commandsOf before ++ [c], .failed e⟩ := by
  obtain ⟨⟨p, after, rfl, hStands⟩, values', hObtains⟩ := h
  rw [hObtains.evaluateFrom_append, evaluateFrom_cons_of_error hStands hShell hEnds]

/-- How an evaluation can end. -/
inductive Finishes (shell : ShellBehaviour) (ran : List String) (params : List Param) : Prop
  /-- All parameters get their values. -/
  | obtained {values : List Param} : Obtains shell ran params values → Finishes shell ran params
  /-- The caller is interrupted before a command ends. -/
  | interrupted {before : List Param} {c : String} : Reaches shell ran params before c →
      shell (ran ++ commandsOf before) c = none → Finishes shell ran params
  /-- A command fails. -/
  | failed {before : List Param} {c : String} {o : Shell.Outcome} {e : CommandError} :
      Reaches shell ran params before c → shell (ran ++ commandsOf before) c = some o →
      Ends c o (.error e) → Finishes shell ran params

theorem finishes (shell : ShellBehaviour) (ran : List String) (params : List Param) :
    Finishes shell ran params := by
  -- On the parameters, with any commands run before: the first one ends the evaluation at its turn,
  -- or the rest decides.
  induction params generalizing ran with
  | nil => exact .obtained .nil
  | cons p rest ih =>
    cases exists_turn shell ran p with
    | kept hOther =>
      have hSame (before : List Param) : commandsOf (p :: before) = commandsOf before :=
        commandsOf_cons_of_not_standsFor hOther before
      cases ih ran with
      | obtained hObtains => exact .obtained (.kept hOther hObtains)
      | interrupted hReaches hShell =>
        exact .interrupted (hReaches.kept hOther) (by rwa [hSame])
      | failed hReaches hShell hEnds =>
        exact .failed (hReaches.kept hOther) (by rwa [hSame]) hEnds
    | interrupted hStands hShell =>
      exact .interrupted (reaches_first hStands) (by rwa [append_commandsOf_nil])
    | failed hStands hShell hEnds =>
      exact .failed (reaches_first hStands) (by rwa [append_commandsOf_nil]) hEnds
    | @replaced c o value hStands hShell hEnds =>
      have hBehind (before : List Param) :
          ran ++ commandsOf (p :: before) = ran ++ [c] ++ commandsOf before := by
        rw [commandsOf_cons_of_standsFor hStands, List.append_cons]
      cases ih (ran ++ [c]) with
      | obtained hObtains => exact .obtained (.replaced hStands hShell hEnds hObtains)
      | interrupted hReaches hRest =>
        exact .interrupted (hReaches.replaced hStands hShell hEnds) (by rwa [hBehind])
      | failed hReaches hRest hFails =>
        exact .failed (hReaches.replaced hStands hShell hEnds) (by rwa [hBehind]) hFails

end

/-- Every command of the parameters ends well when it is run behind those before it. -/
def AllEndWell (shell : ShellBehaviour) (params : List Param) : Prop :=
  ∀ before p after c, params = before ++ p :: after → p.StandsFor c →
    ∃ stdout stderr, shell (commandsOf before) c = some (.ended (.code 0) stdout stderr)

theorem Ends.exists_of_ok {c : String} {o : Shell.Outcome} {value : Param}
    (h : Ends c o (.ok value)) : ∃ stdout stderr output, o = .ended (.code 0) stdout stderr ∧
      Text.IsTrim (Text.decodeLossy stdout) output ∧ value = .text output := by
  cases h with
  | well hTrim => exact ⟨_, _, _, rfl, hTrim, rfl⟩

theorem Ends.ne_of_error {c : String} {o : Shell.Outcome} {e : CommandError}
    (h : Ends c o (.error e)) (stdout stderr : Bytes) : o ≠ .ended (.code 0) stdout stderr := by
  rintro rfl
  cases h with
  | badly hStatus => exact hStatus rfl

/-- Parameters get values exactly where all of their commands end well. -/
theorem exists_obtains_iff {shell : ShellBehaviour} {params : List Param} :
    (∃ values, Obtains shell [] params values) ↔ AllEndWell shell params := by
  constructor
  · rintro ⟨values, hObtains⟩ before p after c hSplit hStands
    obtain ⟨value, -, -, hReplaced⟩ := hObtains.exists_value hSplit
    obtain ⟨o, hShell, hEnds⟩ := hReplaced c hStands
    obtain ⟨stdout, stderr, -, rfl, -⟩ := hEnds.exists_of_ok
    exact ⟨stdout, stderr, hShell⟩
  · intro hWell
    -- A command at which the evaluation ended would be one that does not end well.
    cases finishes shell [] params with
    | obtained hObtains => exact ⟨_, hObtains⟩
    | interrupted hReaches hShell =>
      obtain ⟨p, after, hSplit, hStands⟩ := hReaches.split
      obtain ⟨stdout, stderr, hEnded⟩ := hWell _ p after _ hSplit hStands
      rw [List.nil_append, hEnded] at hShell
      cases hShell
    | failed hReaches hShell hEnds =>
      obtain ⟨p, after, hSplit, hStands⟩ := hReaches.split
      obtain ⟨stdout, stderr, hEnded⟩ := hWell _ p after _ hSplit hStands
      rw [List.nil_append, hEnded] at hShell
      exact absurd (Option.some.inj hShell).symm (hEnds.ne_of_error stdout stderr)

/-- A command is reached where it comes behind parameters whose commands all end well. -/
theorem reaches_iff {shell : ShellBehaviour} {params before : List Param} {c : String} :
    Reaches shell [] params before c ↔
      (∃ p after, params = before ++ p :: after ∧ p.StandsFor c) ∧ AllEndWell shell before := by
  constructor
  · rintro ⟨hSplit, hObtains⟩
    exact ⟨hSplit, exists_obtains_iff.mp hObtains⟩
  · rintro ⟨hSplit, hWell⟩
    exact ⟨hSplit, exists_obtains_iff.mpr hWell⟩

/-! ## The course -/

theorem evaluate_of_obtains {shell : ShellBehaviour} {params values : List Param}
    (h : Obtains shell [] params values) :
    evaluate shell params = ⟨commandsOf params, .values values⟩ := by
  have hAll : evaluateFrom shell [] [] (params ++ []) =
      evaluateFrom shell ([] ++ commandsOf params) ([] ++ values) [] := h.evaluateFrom_append
  rwa [List.append_nil] at hAll

/-- How an evaluation that starts with nothing ends. -/
theorem evaluate_cases (shell : ShellBehaviour) (params : List Param) :
    (∃ values, Obtains shell [] params values ∧
      evaluate shell params = ⟨commandsOf params, .values values⟩) ∨
    (∃ before c, Reaches shell [] params before c ∧ shell (commandsOf before) c = none ∧
      evaluate shell params = ⟨commandsOf before ++ [c], .interrupted⟩) ∨
    ∃ before c o e, Reaches shell [] params before c ∧ shell (commandsOf before) c = some o ∧
      Ends c o (.error e) ∧ evaluate shell params = ⟨commandsOf before ++ [c], .failed e⟩ := by
  cases finishes shell [] params with
  | obtained hObtains => exact .inl ⟨_, hObtains, evaluate_of_obtains hObtains⟩
  | interrupted hReaches hShell =>
    exact .inr (.inl ⟨_, _, hReaches, hShell, hReaches.evaluateFrom_of_none hShell⟩)
  | failed hReaches hShell hEnds =>
    exact .inr (.inr ⟨_, _, _, _, hReaches, hShell, hEnds,
      hReaches.evaluateFrom_of_error hShell hEnds⟩)

/-- What has been run is among the commands of the parameters, up to one of them. -/
theorem Reaches.isPrefix {shell : ShellBehaviour} {ran : List String}
    {params before : List Param} {c : String} (h : Reaches shell ran params before c) :
    commandsOf before ++ [c] <+: commandsOf params := by
  obtain ⟨⟨p, after, rfl, hStands⟩, -⟩ := h
  rw [commandsOf, commandsOf, List.filterMap_append,
    List.filterMap_cons_some (command?_eq_some_iff.mpr hStands)]
  exact (List.prefix_append_right_inj _).mpr (List.prefix_append [c] _)

theorem result_evaluate_eq_values_iff {shell : ShellBehaviour} {params values : List Param} :
    (evaluate shell params).result = .values values ↔ Obtains shell [] params values := by
  constructor
  · intro hResult
    rcases evaluate_cases shell params with ⟨values', hObtains, hRun⟩ | ⟨before, c, -, -, hRun⟩ |
      ⟨before, c, o, e, -, -, -, hRun⟩
    · rw [hRun] at hResult
      cases hResult
      exact hObtains
    · rw [hRun] at hResult
      cases hResult
    · rw [hRun] at hResult
      cases hResult
  · intro hObtains
    rw [evaluate_of_obtains hObtains]

theorem evaluate_eq_failed_iff {shell : ShellBehaviour} {params : List Param}
    {commands : List String} {e : CommandError} :
    evaluate shell params = ⟨commands, .failed e⟩ ↔ ∃ before c o,
      Reaches shell [] params before c ∧ shell (commandsOf before) c = some o ∧
      Ends c o (.error e) ∧ commands = commandsOf before ++ [c] := by
  constructor
  · intro hFailed
    rcases evaluate_cases shell params with ⟨values, -, hRun⟩ | ⟨before, c, -, -, hRun⟩ |
      ⟨before, c, o, e', hReaches, hShell, hEnds, hRun⟩
    · rw [hRun] at hFailed
      cases hFailed
    · rw [hRun] at hFailed
      cases hFailed
    · rw [hRun] at hFailed
      cases hFailed
      exact ⟨before, c, o, hReaches, hShell, hEnds, rfl⟩
  · rintro ⟨before, c, o, hReaches, hShell, hEnds, rfl⟩
    exact hReaches.evaluateFrom_of_error hShell hEnds

theorem evaluate_eq_interrupted_iff {shell : ShellBehaviour} {params : List Param}
    {commands : List String} :
    evaluate shell params = ⟨commands, .interrupted⟩ ↔ ∃ before c,
      Reaches shell [] params before c ∧ shell (commandsOf before) c = none ∧
      commands = commandsOf before ++ [c] := by
  constructor
  · intro hInterrupted
    rcases evaluate_cases shell params with ⟨values, -, hRun⟩ |
      ⟨before, c, hReaches, hShell, hRun⟩ | ⟨before, c, o, e, -, -, -, hRun⟩
    · rw [hRun] at hInterrupted
      cases hInterrupted
    · rw [hRun] at hInterrupted
      cases hInterrupted
      exact ⟨before, c, hReaches, hShell, rfl⟩
    · rw [hRun] at hInterrupted
      cases hInterrupted
  · rintro ⟨before, c, hReaches, hShell, rfl⟩
    exact hReaches.evaluateFrom_of_none hShell

/-- The commands that are run are those of the parameters, up to some point. -/
theorem commands_evaluate_isPrefix (shell : ShellBehaviour) (params : List Param) :
    (evaluate shell params).commands <+: commandsOf params := by
  rcases evaluate_cases shell params with ⟨values, -, hRun⟩ | ⟨before, c, hReaches, -, hRun⟩ |
    ⟨before, c, o, e, hReaches, -, -, hRun⟩
  · rw [hRun]
  · rw [hRun]
    exact hReaches.isPrefix
  · rw [hRun]
    exact hReaches.isPrefix

/-- **An evaluation is ordered, goes once through the parameters, and gives all values or none.**
1. The commands that are run are those of the parameters, in their order, up to some point.
2. There are values exactly where every command ends well when it is run behind those before it.
3. Then all commands have been run, and every parameter has its value in its own place: it is kept,
   or replaced by the trimmed output of its command, whatever this looks like.
4. The evaluation fails with an error exactly where a command that is run behind commands that all
   end well fails with it.  This command is the last one that is run.
5. It is interrupted exactly where the caller is while it waits for such a command.
6. An execution whose parameters fail makes no call, and comes to their error.
7. In whatever surroundings, the commands of an execution are run one at a time and in order.
8. A command that fails there is the last thing that happens, and nothing has been called. -/
theorem evaluation_all_or_nothing (shell : ShellBehaviour) (params : List Param) :
    let run := evaluate shell params
    run.commands <+: commandsOf params ∧
    ((∃ values, run.result = .values values) ↔ AllEndWell shell params) ∧
    (∀ values, run.result = .values values →
      run.commands = commandsOf params ∧ values.length = params.length ∧
      ∀ before p after, params = before ++ p :: after →
        ((∀ c, ¬ p.StandsFor c) → values[before.length]? = some p) ∧
        ∀ c, p.StandsFor c → ∃ stdout stderr output,
          shell (commandsOf before) c = some (.ended (.code 0) stdout stderr) ∧
          Text.IsTrim (Text.decodeLossy stdout) output ∧
          values[before.length]? = some (.text output)) ∧
    (∀ commands e, run = ⟨commands, .failed e⟩ ↔ ∃ before p after c o,
      params = before ++ p :: after ∧ p.StandsFor c ∧ AllEndWell shell before ∧
      shell (commandsOf before) c = some o ∧ Ends c o (.error e) ∧
      commands = commandsOf before ++ [c]) ∧
    (∀ commands, run = ⟨commands, .interrupted⟩ ↔ ∃ before p after c,
      params = before ++ p :: after ∧ p.StandsFor c ∧ AllEndWell shell before ∧
      shell (commandsOf before) c = none ∧ commands = commandsOf before ++ [c]) ∧
    ∀ q : Query, q.params = params →
      (∀ source now e, run.result = .failed e →
        q.execute shell source now false =
          ⟨run.commands, [], some ⟨[], .error (.params e)⟩⟩) ∧
      ∀ env,
        (∃ pending : List String, pending.length ≤ 1 ∧
          (q.perform env).history.commandCourse =
            History.oneAtATime (q.perform env).history.outcomes ++ pending.map .commandRun ∧
          (q.perform env).history.outcomes.map Prod.fst ++ pending <+: commandsOf params) ∧
        ∀ c o e, .commandEnded c o ∈ (q.perform env).history → Ends c o (.error e) →
          (∃ before, (q.perform env).history = before ++ [.commandEnded c o]) ∧
          (q.perform env).history.calls = [] ∧
          (q.perform env).result = some ⟨[], .error (.params e)⟩ := by
  intro run
  refine ⟨commands_evaluate_isPrefix shell params, ?values, ?places, ?failed, ?interrupted,
    fun q hParams => ⟨?noCall, fun env => ⟨?oneAtATime, ?last⟩⟩⟩
  case values =>
    rw [← exists_obtains_iff]
    exact exists_congr fun values => result_evaluate_eq_values_iff
  case places =>
    intro values hResult
    have hObtains := result_evaluate_eq_values_iff.mp hResult
    refine ⟨congrArg Evaluation.commands (evaluate_of_obtains hObtains), hObtains.length_eq,
      fun before p after hSplit => ?_⟩
    obtain ⟨value, hPlace, hKept, hReplaced⟩ := hObtains.exists_value hSplit
    refine ⟨fun hOther => by rw [hPlace, hKept hOther], fun c hStands => ?_⟩
    obtain ⟨o, hShell, hEnds⟩ := hReplaced c hStands
    obtain ⟨stdout, stderr, output, rfl, hTrim, rfl⟩ := hEnds.exists_of_ok
    exact ⟨stdout, stderr, output, hShell, hTrim, hPlace⟩
  case failed =>
    intro commands e
    simp only [run, evaluate_eq_failed_iff, reaches_iff]
    constructor
    · rintro ⟨before, c, o, ⟨⟨p, after, hSplit, hStands⟩, hWell⟩, hRest⟩
      exact ⟨before, p, after, c, o, hSplit, hStands, hWell, hRest⟩
    · rintro ⟨before, p, after, c, o, hSplit, hStands, hWell, hRest⟩
      exact ⟨before, c, o, ⟨⟨p, after, hSplit, hStands⟩, hWell⟩, hRest⟩
  case interrupted =>
    intro commands
    simp only [run, evaluate_eq_interrupted_iff, reaches_iff]
    constructor
    · rintro ⟨before, c, ⟨⟨p, after, hSplit, hStands⟩, hWell⟩, hRest⟩
      exact ⟨before, p, after, c, hSplit, hStands, hWell, hRest⟩
    · rintro ⟨before, p, after, c, hSplit, hStands, hWell, hRest⟩
      exact ⟨before, c, ⟨⟨p, after, hSplit, hStands⟩, hWell⟩, hRest⟩
  case noCall =>
    intro source now e hFailed
    have hEvaluation : (evaluate shell q.params).result = .failed e := by rw [hParams, hFailed]
    rw [Query.execute_eq, if_neg Bool.false_ne_true, Query.reportOf, hEvaluation, hParams]
  case oneAtATime =>
    rw [← hParams]
    exact q.exists_pending_perform env
  case last =>
    intro c o e hMem hEnds
    exact Query.perform_of_failed hMem (ofOutcome_eq_iff.mpr hEnds)

/-- A shell that answers differently at each run of a command: its first output looks like a command
and is kept, and its second run fails, so nothing is run after it. -/
theorem evaluation_all_or_nothing_second_run_fails :
    let shell : ShellBehaviour := fun ran c =>
      if ran = [] then some (.ended (.code 0) (Text.encode ("$(" ++ c ++ ")\n")) [])
      else some (.ended (.signal 9 false) [] (Text.encode " gone\n"))
    let params : List Param := [.int 7, .text "$(a)", .text "b", .text "$(a)", .text "$(c)"]
    let e : CommandError := .failed "a" (.signal 9 false) "gone"
    let q : Query := { sql := "SELECT", params := params }
    evaluate shell (params.take 3) = ⟨["a"], .values [.int 7, .text "$(a)", .text "b"]⟩ ∧
      evaluate shell params = ⟨["a", "a"], .failed e⟩ ∧ ¬ AllEndWell shell params ∧
      q.execute shell (fun _ => .interrupted) 0 false =
        ⟨["a", "a"], [], some ⟨[], .error (.params e)⟩⟩ := by
  intro shell params e q
  have hFirst : evaluate shell (params.take 3) =
      ⟨["a"], .values [.int 7, .text "$(a)", .text "b"]⟩ := by cbv
  have hRun : evaluate shell params = ⟨["a", "a"], .failed e⟩ := by cbv
  obtain ⟨-, hValues, -, -, -, hQuery⟩ := evaluation_all_or_nothing shell params
  obtain ⟨hNoCall, -⟩ := hQuery q rfl
  refine ⟨hFirst, hRun, fun hWell => ?_, ?_⟩
  · obtain ⟨values, hResult⟩ := hValues.mpr hWell
    rw [hRun] at hResult
    cases hResult
  · rw [hNoCall _ _ e (congrArg Evaluation.result hRun), hRun]

end Param

end SqlMetrics
