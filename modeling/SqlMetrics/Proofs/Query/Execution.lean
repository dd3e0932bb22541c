import SqlMetrics.Proofs.Query.Extraction
import SqlMetrics.Proofs.Query.Performance

/-!
# The course of an execution

What an execution does and comes to, whatever its surroundings do.

- **Values**: `Param.Evaluates` says which values parameters have after certain outcomes.
- **Clock, Calls, Results**: what is read off a history, each proved along `Execution.GoesOn`.
- **Indifference**: later readings of the clock and a token that is fired by an answer change
  nothing.
- **Agreement**: `Query.execute` is a performance in surroundings of its own.
- **The course**: `Query.execution_course` puts these together.
-/

namespace SqlMetrics

/-! ## Values -/

/-- The values of parameters when their commands end like this, in order: a parameter stands for
itself, or for what the outcome of its command gives it. -/
inductive Param.Evaluates : List Param → List (String × Shell.Outcome) → List Param → Prop
  | nil : Evaluates [] [] []
  | plain {p : Param} {params : List Param} {outcomes : List (String × Shell.Outcome)}
      {values : List Param} : p.command? = none → Evaluates params outcomes values →
      Evaluates (p :: params) outcomes (p :: values)
  | command {p : Param} {params : List Param} {command : String} {outcome : Shell.Outcome}
      {outcomes : List (String × Shell.Outcome)} {value : Param} {values : List Param} :
      p.command? = some command → Param.ofOutcome command outcome = .ok value →
      Evaluates params outcomes values →
      Evaluates (p :: params) ((command, outcome) :: outcomes) (value :: values)

namespace Execution

/-- The parameters with which an execution calls the data source, when the commands that it has
still to run end like this. -/
def Yields (outcomes : List (String × Shell.Outcome)) (params : List Param) : Execution → Prop
  | .evaluating _ values command rest =>
    ∃ outcome more value others, outcomes = (command, outcome) :: more ∧
      Param.ofOutcome command outcome = .ok value ∧ Param.Evaluates rest more others ∧
        params = values ++ value :: others
  | .querying _ values => outcomes = [] ∧ params = values
  | .finished _ => False

/-- An evaluation that goes on yields the values it has and those of the parameters left. -/
theorem yields_advance {now : Int64} {values rest params : List Param}
    {outcomes : List (String × Shell.Outcome)} :
    (ofProgress now (Param.Progress.advance values rest)).Yields outcomes params ↔
      ∃ others, Param.Evaluates rest outcomes others ∧ params = values ++ others := by
  -- On the parameters left: one without a command joins the values, and one with a command is where
  -- the execution stops.
  induction rest generalizing values with
  | nil =>
    constructor
    · rintro ⟨rfl, rfl⟩
      exact ⟨[], .nil, (List.append_nil _).symm⟩
    · rintro ⟨others, hEvaluates, rfl⟩
      cases hEvaluates
      exact ⟨rfl, List.append_nil _⟩
  | cons p rest ih =>
    rw [Param.Progress.advance]
    cases hCommand : p.command? with
    | none =>
      rw [ih]
      constructor
      · rintro ⟨others, hEvaluates, rfl⟩
        exact ⟨p :: others, .plain hCommand hEvaluates, by simp⟩
      · rintro ⟨others, hEvaluates, rfl⟩
        cases hEvaluates with
        | plain _ hRest => exact ⟨_, hRest, by simp⟩
        | command hSome => simp [hCommand] at hSome
    | some command =>
      constructor
      · rintro ⟨outcome, more, value, others, rfl, hValue, hRest, rfl⟩
        exact ⟨_, .command hCommand hValue hRest, rfl⟩
      · rintro ⟨others, hEvaluates, rfl⟩
        cases hEvaluates with
        | plain hNone => simp [hCommand] at hNone
        | command hSome hValue hRest =>
          obtain rfl := Option.some.inj (hCommand.symm.trans hSome)
          exact ⟨_, _, _, _, rfl, hValue, hRest, rfl⟩

/-- An execution whose command has ended yields what it did before with this outcome. -/
theorem yields_resumeCommand {now : Int64} {values rest params : List Param} {command : String}
    {outcome : Shell.Outcome} {outcomes : List (String × Shell.Outcome)} :
    (resumeCommand now values command rest outcome).Yields outcomes params ↔
      (evaluating now values command rest).Yields ((command, outcome) :: outcomes) params := by
  rw [resumeCommand]
  cases hValue : Param.ofOutcome command outcome with
  | error e => simp [failed, Yields, hValue]
  | ok value =>
    dsimp only
    rw [yields_advance]
    simp [Yields, hValue]

/-! ## Clock -/

variable {q : Query} {env : Surroundings} {now : Int64} {past looks tail : History} {e : Execution}
  {call : SourceCall} {r : Option Extraction}

/-- The clock is not read any more. -/
theorem GoesOn.clockRead_not_mem (h : GoesOn q env now past e tail r) (now' : Int64) :
    Occurrence.clockRead now' ∉ tail := by
  -- On the ways to go on; the looks at the token in between read no clock either.
  induction h with
  | finished => simp
  | commandCancelled => simp
  | commandStuck => simp
  | commandEnded hGives _ _ ih => simp [hGives.unfired.clockRead_not_mem, ih]
  | queryCancelled => simp
  | called _ hEnds =>
    cases hEnds with
    | cancelled => simp
    | stuck => simp
    | replied hGives => simp [hGives.unfired.clockRead_not_mem]

/-! ## Calls -/

theorem calls_commandEnded {command : String} {outcome : Shell.Outcome} (h : looks.Unfired) :
    History.calls (.commandRun command :: (looks ++ .commandEnded command outcome :: tail)) =
      tail.calls := by
  change History.calls (looks ++ .commandEnded command outcome :: tail) = tail.calls
  rw [History.calls_append, h.calls_eq_nil]
  rfl

theorem outcomes_commandEnded {command : String} {outcome : Shell.Outcome} (h : looks.Unfired) :
    History.outcomes (.commandRun command :: (looks ++ .commandEnded command outcome :: tail)) =
      (command, outcome) :: tail.outcomes := by
  change History.outcomes (looks ++ .commandEnded command outcome :: tail) = _
  rw [History.outcomes_append, h.outcomes_eq_nil]
  rfl

theorem tokenSeen_mem_beforeCall_commandEnded {command : String} {outcome : Shell.Outcome}
    (h : looks.Unfired) :
    Occurrence.tokenSeen true ∈ History.beforeCall
        (.commandRun command :: (looks ++ .commandEnded command outcome :: tail)) ↔
      Occurrence.tokenSeen true ∈ tail.beforeCall := by
  change _ ∈ Occurrence.commandRun command ::
    History.beforeCall (looks ++ .commandEnded command outcome :: tail) ↔ _
  rw [h.beforeCall_append]
  change _ ∈ Occurrence.commandRun command ::
    (looks ++ .commandEnded command outcome :: tail.beforeCall) ↔ _
  simp [h.tokenSeen_not_mem]

/-- After the call nothing else is called and no command ends. -/
theorem CallEnds.quiet (h : CallEnds q env now past call tail r) :
    tail.calls = [] ∧ tail.outcomes = [] := by
  cases h with
  | cancelled => exact ⟨rfl, rfl⟩
  | stuck => exact ⟨rfl, rfl⟩
  | replied hGives =>
    constructor
    · rw [History.calls_append, hGives.unfired.calls_eq_nil]
      rfl
    · rw [History.outcomes_append, hGives.unfired.outcomes_eq_nil]
      rfl

/-- There is at most one call, and it is the query's. -/
theorem GoesOn.calls_cases (h : GoesOn q env now past e tail r) :
    tail.calls = [] ∨ ∃ params, tail.calls = [⟨q.sql, params⟩] := by
  induction h with
  | finished => exact .inl rfl
  | commandCancelled => exact .inl rfl
  | commandStuck => exact .inl rfl
  | commandEnded hGives _ _ ih => rwa [calls_commandEnded hGives.unfired]
  | queryCancelled => exact .inl rfl
  | @called past params tail r _ hEnds =>
    refine .inr ⟨params, ?_⟩
    change ⟨q.sql, params⟩ :: tail.calls = _
    rw [hEnds.quiet.1]

/-- The call is made with some parameters exactly where no look before it finds the token fired and
the execution yields these parameters. -/
theorem GoesOn.calls_eq_iff (h : GoesOn q env now past e tail r) (params : List Param) :
    tail.calls = [⟨q.sql, params⟩] ↔
      Occurrence.tokenSeen true ∉ tail.beforeCall ∧ e.Yields tail.outcomes params := by
  induction h with
  | finished => simp [History.calls, Yields]
  | commandCancelled => simp [History.calls, History.beforeCall]
  | commandStuck => simp [History.calls, History.outcomes, Yields]
  | commandEnded hGives _ _ ih =>
    -- The outcome moves from the history to the execution that is resumed with it.
    rw [calls_commandEnded hGives.unfired, outcomes_commandEnded hGives.unfired,
      tokenSeen_mem_beforeCall_commandEnded hGives.unfired, ← yields_resumeCommand]
    exact ih
  | queryCancelled => simp [History.calls, History.beforeCall]
  | @called past values tail r _ hEnds =>
    change ⟨q.sql, values⟩ :: tail.calls = _ ↔
      _ ∉ [Occurrence.tokenSeen false] ∧ (Execution.querying now values).Yields tail.outcomes params
    rw [hEnds.quiet.1, hEnds.quiet.2]
    simp [Yields, eq_comm]

theorem yields_start {params : List Param} {outcomes : List (String × Shell.Outcome)} :
    (start q now false).Yields outcomes params ↔ Param.Evaluates q.params outcomes params := by
  change (ofProgress now (Param.Progress.advance [] q.params)).Yields outcomes params ↔ _
  rw [yields_advance]
  simp

/-! ## Results -/

/-- What happens in an execution may decide what it comes to. -/
inductive Concludes (q : Query) (now : Int64) : Occurrence → Option Extraction → Prop
  | tokenFired : Concludes q now (.tokenSeen true) (some ⟨[], .error .cancelled⟩)
  | commandFailed {command : String} {outcome : Shell.Outcome} {e : CommandError} :
      Param.ofOutcome command outcome = .error e →
      Concludes q now (.commandEnded command outcome) (some ⟨[], .error (.params e)⟩)
  | sourceFailed {e : SourceError} {fires : Bool} :
      Concludes q now (.replied (.answered (.error e) fires)) (some ⟨[], .error (.source e)⟩)
  | rowsGiven {rows : List RawRow} {fires : Bool} :
      Concludes q now (.replied (.answered (.ok rows) fires))
        (some (q.extract (rows.map Row.ofRaw) now))
  | interrupted : Concludes q now (.replied .interrupted) (some ⟨[], .error .cancelled⟩)
  | crashed {report : String} {fires : Bool} :
      Concludes q now (.replied (.crashed report fires)) none

/-- A reply always decides. -/
theorem concludes_replied {reply : Reply SourceAnswer} :
    Concludes q now (.replied reply) r ↔ r = q.ofReply now reply := by
  constructor
  · intro h
    cases h with
    | sourceFailed => rfl
    | rowsGiven => rfl
    | interrupted => rfl
    | crashed => rfl
  · rintro rfl
    cases reply with
    | answered answer fires =>
      cases answer with
      | error e => exact .sourceFailed
      | ok rows => exact .rowsGiven
    | interrupted => exact .interrupted
    | crashed report fires => exact .crashed

theorem not_concludes_of_unfired (h : looks.Unfired) {o : Occurrence} (hMem : o ∈ looks) :
    ¬ Concludes q now o r := by
  rw [h o hMem]
  rintro ⟨⟩

theorem CallEnds.eq_of_concludes {r' : Option Extraction} {o : Occurrence}
    (h : CallEnds q env now past call tail r) (hMem : o ∈ tail)
    (hConcludes : Concludes q now o r') : r = r' := by
  cases h with
  | cancelled =>
    obtain rfl := List.mem_singleton.mp hMem
    cases hConcludes
    rfl
  | stuck => cases hMem
  | replied hGives =>
    rcases List.mem_append.mp hMem with hLook | hReply
    · exact absurd hConcludes (not_concludes_of_unfired hGives.unfired hLook)
    · obtain rfl := List.mem_singleton.mp hReply
      exact (concludes_replied.mp hConcludes).symm

/-- An execution whose command has failed is over. -/
theorem GoesOn.of_failed {values rest : List Param} {command : String} {outcome : Shell.Outcome}
    {e : CommandError}
    (h : GoesOn q env now past (resumeCommand now values command rest outcome) tail r)
    (hFailed : Param.ofOutcome command outcome = .error e) :
    r = some ⟨[], .error (.params e)⟩ := by
  rw [resumeCommand, hFailed] at h
  cases h
  rfl

/-- **An execution comes to what anything that happens in it decides.** -/
theorem GoesOn.eq_of_concludes {r' : Option Extraction} {o : Occurrence}
    (h : GoesOn q env now past e tail r) (hMem : o ∈ tail)
    (hConcludes : Concludes q now o r') : r = r' := by
  -- On the ways to go on: what decides is the last thing that happens in each of them.
  induction h with
  | finished => cases hMem
  | commandCancelled =>
    rcases List.mem_cons.mp hMem with rfl | hLook
    · cases hConcludes
    · obtain rfl := List.mem_singleton.mp hLook
      cases hConcludes
      rfl
  | commandStuck =>
    obtain rfl := List.mem_singleton.mp hMem
    cases hConcludes
  | commandEnded hGives _ hGoes ih =>
    rcases List.mem_cons.mp hMem with rfl | hRest
    · cases hConcludes
    rcases List.mem_append.mp hRest with hLook | hEnd
    · exact absurd hConcludes (not_concludes_of_unfired hGives.unfired hLook)
    rcases List.mem_cons.mp hEnd with rfl | hTail
    · cases hConcludes with
      | commandFailed hFailed => exact hGoes.of_failed hFailed
    · exact ih hTail
  | queryCancelled =>
    obtain rfl := List.mem_singleton.mp hMem
    cases hConcludes
    rfl
  | called _ hEnds =>
    rcases List.mem_cons.mp hMem with rfl | hRest
    · cases hConcludes
    rcases List.mem_cons.mp hRest with rfl | hTail
    · cases hConcludes
    · exact hEnds.eq_of_concludes hTail hConcludes

theorem ofProgress_ne_finished (now : Int64) (p : Param.Progress) (x : Extraction) :
    ofProgress now p ≠ .finished x := by
  cases p with
  | finished values => rintro ⟨⟩
  | waiting values command rest => rintro ⟨⟩

/-- An execution that is over when its command has ended has failed with the command. -/
theorem resumeCommand_eq_finished {values rest : List Param} {command : String}
    {outcome : Shell.Outcome} {x : Extraction}
    (h : resumeCommand now values command rest outcome = .finished x) :
    ∃ e, Param.ofOutcome command outcome = .error e := by
  cases hValue : Param.ofOutcome command outcome with
  | error e => exact ⟨e, rfl⟩
  | ok value =>
    rw [resumeCommand, hValue] at h
    exact absurd h (ofProgress_ne_finished _ _ _)

/-- After a history, something has begun that does not end, and the token is not found fired. -/
def Hangs (env : Surroundings) (past : History) : Occurrence → Prop
  | .commandRun command =>
    env.shell past command = .never ∧ env.token (past ++ [.commandRun command]) = false
  | .called call => env.source past call = .never ∧ env.token (past ++ [.called call]) = false
  | _ => False

/-- **What an execution comes to is always decided**, unless what it has begun last hangs. -/
theorem GoesOn.exists_concludes (h : GoesOn q env now past e tail r)
    (hUnfinished : ∀ x, e ≠ .finished x) :
    (∃ o ∈ tail, Concludes q now o r) ∨
      r = none ∧ ∃ before o, tail = before ++ [o] ∧ Hangs env (past ++ before) o := by
  induction h with
  | finished => exact absurd rfl (hUnfinished _)
  | commandCancelled => exact .inl ⟨.tokenSeen true, by simp, .tokenFired⟩
  | commandStuck hNever hUnfired =>
    refine .inr ⟨rfl, [], _, rfl, ?_⟩
    rw [List.append_nil]
    exact ⟨hNever, hUnfired⟩
  | @commandEnded past values command rest outcome looks tail r hGives _ hGoes ih =>
    -- Either the command has failed and this decides, or what comes after it does.
    by_cases hOver : ∃ x, resumeCommand now values command rest outcome = .finished x
    · obtain ⟨x, hFinished⟩ := hOver
      obtain ⟨e, hFailed⟩ := resumeCommand_eq_finished hFinished
      refine .inl ⟨.commandEnded command outcome, by simp, ?_⟩
      rw [hGoes.of_failed hFailed]
      exact .commandFailed hFailed
    · rcases ih (not_exists.mp hOver) with ⟨o, hMem, hConcludes⟩ | ⟨hNone, before, o, rfl, hHangs⟩
      · exact .inl ⟨o, by simp [hMem], hConcludes⟩
      · refine .inr ⟨hNone,
          .commandRun command :: (looks ++ .commandEnded command outcome :: before), o, by simp, ?_⟩
        simpa using hHangs
  | queryCancelled => exact .inl ⟨.tokenSeen true, by simp, .tokenFired⟩
  | @called past params tail r _ hEnds =>
    cases hEnds with
    | cancelled => exact .inl ⟨.tokenSeen true, by simp, .tokenFired⟩
    | stuck hNever hUnfired => exact .inr ⟨rfl, [.tokenSeen false], _, rfl, hNever, hUnfired⟩
    | @replied looks reply =>
      exact .inl ⟨.replied reply, by simp, concludes_replied.mpr rfl⟩

end Execution

/-! ## Indifference -/

/-- The same reply of a call that does not fire the token. -/
def Reply.quiet {α : Type} : Reply α → Reply α
  | .answered value _ => .answered value false
  | .interrupted => .interrupted
  | .crashed report _ => .crashed report false

namespace Surroundings

/-- The same surroundings with calls that do not fire the token, and with another clock. -/
def quietWith (env : Surroundings) (clock : History → Int64) : Surroundings where
  clock := clock
  token := env.token
  shell := env.shell
  source past call := (env.source past call).map Reply.quiet

/-- A wait for a changed value goes on as the wait for the value does. -/
theorem await_map {α β : Type} (env : Surroundings) (past : History) (ending : Ending α) (f : α → β)
    (go : History → β → Performance) :
    env.await past (ending.map f) go =
      env.await past ending fun past value => go past (f value) := by
  cases ending with
  | atOnce value => rfl
  | later value => rfl
  | never => rfl

/-- A wait looks at nothing but the token. -/
theorem result_await_congr {α : Type} {env env' : Surroundings} (past : History) (ending : Ending α)
    {go go' : History → α → Performance} (hToken : env'.token = env.token)
    (hGo : ∀ past value, (go' past value).result = (go past value).result) :
    (env'.await past ending go').result = (env.await past ending go).result := by
  cases ending with
  | atOnce value => exact hGo past value
  | later value =>
    rw [await, await, hToken]
    split
    · rfl
    · exact hGo _ value
  | never => rw [await, await, hToken]

end Surroundings

namespace Query

theorem ofReply_quiet (q : Query) (now : Int64) (reply : Reply SourceAnswer) :
    q.ofReply now reply.quiet = q.ofReply now reply := by
  cases reply with
  | answered answer fires => rfl
  | interrupted => rfl
  | crashed report fires => rfl

/-- An execution that is under way comes to the same, whatever the clock shows and whether or not
its call fires the token. -/
theorem result_performFrom_quietWith (q : Query) (env : Surroundings) (clock : History → Int64)
    (past : History) (e : Execution) :
    (q.performFrom (env.quietWith clock) past e).result = (q.performFrom env past e).result := by
  -- Both go through the same history, since the reply is the last thing in it.
  fun_induction Query.performFrom q env past e with
  | case1 past x =>
    rw [performFrom]
  | case2 past now values command rest ih =>
    rw [performFrom]
    exact Surroundings.result_await_congr _ _ rfl fun past outcome => ih past outcome
  | case3 past now params hFired =>
    rw [performFrom, Surroundings.quietWith, if_pos hFired]
  | case4 past now params hFired call past' =>
    rw [performFrom, Surroundings.quietWith, if_neg hFired]
    dsimp only
    rw [Surroundings.await_map]
    exact Surroundings.result_await_congr _ _ rfl fun past reply => q.ofReply_quiet now reply

end Query

/-! ## Agreement -/

/-- The surroundings of an execution against a shell and a data source: a command for which the
shell has no answer is cut short by the token. -/
def Surroundings.ofParts (shell : Param.ShellBehaviour) (source : SourceCall → Reply SourceAnswer)
    (now : Int64) (cancelled : Bool) : Surroundings where
  clock _ := now
  token past :=
    match past.getLast? with
    | some (.clockRead _) => cancelled
    | some (.commandRun command) => (shell (History.commands past.dropLast) command).isNone
    | _ => false
  shell past command :=
    match shell past.commands command with
    | some outcome => .later outcome
    | none => .never
  source _ call := .atOnce (source call)

/-- A wait for a command is cut short, or goes on with the outcome. -/
theorem Surroundings.await_ofParts (shell : Param.ShellBehaviour)
    (source : SourceCall → Reply SourceAnswer) (now : Int64) (cancelled : Bool) (past : History)
    (command : String) (go : History → Shell.Outcome → Performance) :
    (ofParts shell source now cancelled).await (past ++ [.commandRun command])
        ((ofParts shell source now cancelled).shell past command) go =
      match shell past.commands command with
      | none => .cancelled (past ++ [.commandRun command])
      | some outcome => go (past ++ [.commandRun command] ++ [.tokenSeen false]) outcome := by
  cases hShell : shell past.commands command with
  | none => simp [ofParts, await, hShell]
  | some outcome => simp [ofParts, await, hShell]

/-- The report on a performance. -/
def Performance.report (p : Performance) : ExecutionReport :=
  ⟨p.history.commands, p.history.calls, p.result⟩

namespace Query

/-- The report on an execution whose parameters have been evaluated. -/
def reportOf (q : Query) (source : SourceCall → Reply SourceAnswer) (now : Int64)
    (evaluation : Param.Evaluation) : ExecutionReport :=
  match evaluation.result with
  | .interrupted => ⟨evaluation.commands, [], some .cancelled⟩
  | .failed e => ⟨evaluation.commands, [], some ⟨[], .error (.params e)⟩⟩
  | .values params =>
    ⟨evaluation.commands, [⟨q.sql, params⟩], q.ofReply now (source ⟨q.sql, params⟩)⟩

theorem execute_eq (q : Query) (shell : Param.ShellBehaviour)
    (source : SourceCall → Reply SourceAnswer) (now : Int64) (cancelled : Bool) :
    q.execute shell source now cancelled =
      if cancelled then ⟨[], [], some .cancelled⟩
      else q.reportOf source now (Param.evaluate shell q.params) := by
  rw [execute]
  generalize Param.evaluate shell q.params = evaluation
  obtain ⟨commands, result⟩ := evaluation
  cases result with
  | values params =>
    rw [reportOf]
    cases source ⟨q.sql, params⟩ with
    | answered answer fires => rfl
    | interrupted => rfl
    | crashed report fires => rfl
  | failed e => rfl
  | interrupted => rfl

variable {shell : Param.ShellBehaviour} {source : SourceCall → Reply SourceAnswer} {now : Int64}
  {cancelled : Bool}

/-- Where nothing is called yet and the token is not found fired, a performance reports what the
evaluation of the parameters left comes to. -/
theorem report_performFrom (q : Query) {past : History} {e : Execution} {p : Param.Progress}
    (hStands : e = Execution.ofProgress now p) (hCalls : past.calls = [])
    (hToken : (Surroundings.ofParts shell source now cancelled).token past = false) :
    (q.performFrom (.ofParts shell source now cancelled) past e).report =
      q.reportOf source now (Param.evaluateOn shell past.commands p) := by
  fun_induction Query.performFrom q (.ofParts shell source now cancelled) past e generalizing p with
  | case1 past x => cases p <;> cases hStands
  | case2 past now' values command rest ih =>
    cases p with
    | finished values' => cases hStands
    | waiting values' command' rest' =>
      cases hStands
      rw [Param.evaluateOn, Surroundings.await_ofParts]
      cases hShell : shell past.commands command with
      | none =>
        rw [Performance.report, Performance.cancelled, History.calls_append, History.calls_append,
          hCalls, History.commands_append, History.commands_append]
        simp [History.commands, History.calls, reportOf]
      | some outcome =>
        dsimp only
        -- What has happened when the execution is resumed with the outcome.
        have hCommands : History.commands (past ++ [Occurrence.commandRun command] ++
            [Occurrence.tokenSeen false] ++ [Occurrence.commandEnded command outcome]) =
            past.commands ++ [command] := by
          simp [History.commands]
        have hNoCalls : History.calls (past ++ [Occurrence.commandRun command] ++
            [Occurrence.tokenSeen false] ++ [Occurrence.commandEnded command outcome]) = [] := by
          simp only [History.calls_append, hCalls]
          rfl
        cases hValue : Param.ofOutcome command outcome with
        | error e =>
          rw [Execution.resumeCommand, hValue]
          dsimp only
          rw [Execution.failed, performFrom, Performance.report, hCommands, hNoCalls, reportOf]
        | ok value =>
          have hResumed : Execution.resumeCommand now values command rest outcome =
              Execution.ofProgress now (Param.Progress.advance (values ++ [value]) rest) := by
            rw [Execution.resumeCommand, hValue]
          have hReport := ih (past ++ [Occurrence.commandRun command] ++
            [Occurrence.tokenSeen false]) outcome hResumed hNoCalls (by simp [Surroundings.ofParts])
          rw [hCommands, ← Param.evaluateFrom_eq_evaluateOn] at hReport
          exact hReport
  | case3 past now' params hFired => simp [hFired] at hToken
  | case4 past now' params hFired call =>
    cases p with
    | finished values' =>
      cases hStands
      change Performance.report ⟨past ++ [Occurrence.tokenSeen false] ++
        [Occurrence.called call] ++ [Occurrence.replied (source call)],
        q.ofReply now (source call)⟩ = _
      simp only [Performance.report, History.commands_append, History.calls_append, hCalls]
      simp [History.commands, History.calls, reportOf, Param.evaluateOn, call]
    | waiting values' command' rest' => cases hStands

/-- **Agreement**: an execution against a shell and a data source is a performance. -/
theorem execute_eq_report (q : Query) (shell : Param.ShellBehaviour)
    (source : SourceCall → Reply SourceAnswer) (now : Int64) (cancelled : Bool) :
    q.execute shell source now cancelled =
      (q.perform (.ofParts shell source now cancelled)).report := by
  rw [execute_eq]
  cases cancelled with
  | true =>
    -- The first look finds the token fired.
    change _ = Performance.report (q.performFrom _ [.clockRead now, .tokenSeen true] (.finished _))
    rw [performFrom]
    rfl
  | false =>
    have hReport : (q.performFrom (.ofParts shell source now false)
        [.clockRead now, .tokenSeen false] (Execution.start q now false)).report =
        q.reportOf source now (Param.evaluateOn shell [] (Param.Progress.advance [] q.params)) :=
      q.report_performFrom rfl rfl rfl
    rw [Param.evaluate, Param.evaluateFrom_eq_evaluateOn]
    exact hReport.symm

/-! ## The course -/

variable {q : Query} {env : Surroundings}

theorem clockRead_perform (q : Query) (env : Surroundings) :
    ∃ rest, (q.perform env).history = .clockRead (env.clock []) :: rest ∧
      ∀ now, Occurrence.clockRead now ∉ rest := by
  rcases q.perform_cases env with ⟨-, hOver⟩ | ⟨-, tail, hHistory, hTail⟩
  · exact ⟨[.tokenSeen true], by rw [hOver]; rfl, by simp⟩
  · exact ⟨.tokenSeen false :: tail, hHistory, fun now => by simp [hTail.clockRead_not_mem]⟩

theorem calls_perform_cases (q : Query) (env : Surroundings) :
    (q.perform env).history.calls = [] ∨
      ∃ params, (q.perform env).history.calls = [⟨q.sql, params⟩] := by
  rcases q.perform_cases env with ⟨-, hOver⟩ | ⟨-, tail, hHistory, hTail⟩
  · rw [hOver]
    exact .inl rfl
  · rw [hHistory]
    exact hTail.calls_cases

/-- The call is made with some parameters exactly where no look before it finds the token fired and
these are the values of the parameters. -/
theorem calls_perform_eq_iff (q : Query) (env : Surroundings) (params : List Param) :
    (q.perform env).history.calls = [⟨q.sql, params⟩] ↔
      Occurrence.tokenSeen true ∉ (q.perform env).history.beforeCall ∧
        Param.Evaluates q.params (q.perform env).history.outcomes params := by
  rcases q.perform_cases env with ⟨-, hOver⟩ | ⟨-, tail, hHistory, hTail⟩
  · rw [hOver]
    simp [Performance.cancelled, History.calls, History.beforeCall]
  · rw [hHistory]
    have hCall := hTail.calls_eq_iff params
    rw [Execution.yields_start] at hCall
    change tail.calls = _ ↔
      _ ∉ Occurrence.clockRead (env.clock []) :: .tokenSeen false :: tail.beforeCall ∧
        Param.Evaluates q.params tail.outcomes params
    simpa using hCall

/-- A performance comes to what anything that happens in it decides. -/
theorem result_perform_eq {o : Occurrence} {r : Option Extraction}
    (hMem : o ∈ (q.perform env).history) (hConcludes : Execution.Concludes q (env.clock []) o r) :
    (q.perform env).result = r := by
  rcases q.perform_cases env with ⟨-, hOver⟩ | ⟨-, tail, hHistory, hTail⟩
  · rw [hOver] at hMem ⊢
    rcases List.mem_cons.mp hMem with rfl | hLook
    · cases hConcludes
    · obtain rfl := List.mem_singleton.mp hLook
      cases hConcludes
      rfl
  · rw [hHistory] at hMem
    rcases List.mem_cons.mp hMem with rfl | hRest
    · cases hConcludes
    rcases List.mem_cons.mp hRest with rfl | hMem
    · cases hConcludes
    · exact hTail.eq_of_concludes hMem hConcludes

theorem exists_concludes_perform (q : Query) (env : Surroundings) :
    (∃ o ∈ (q.perform env).history,
        Execution.Concludes q (env.clock []) o (q.perform env).result) ∨
      (q.perform env).result = none ∧
        ∃ before o, (q.perform env).history = before ++ [o] ∧ Execution.Hangs env before o := by
  rcases q.perform_cases env with ⟨-, hOver⟩ | ⟨-, tail, hHistory, hTail⟩
  · rw [hOver]
    exact .inl ⟨.tokenSeen true, by simp [Performance.cancelled], .tokenFired⟩
  · rw [hHistory]
    rcases hTail.exists_concludes (Execution.ofProgress_ne_finished _ _) with
      ⟨o, hMem, hConcludes⟩ | ⟨hNone, before, o, rfl, hHangs⟩
    · exact .inl ⟨o, by simp [hMem], hConcludes⟩
    · exact .inr ⟨hNone, _ :: _ :: before, o, rfl, hHangs⟩

/-- The points of a performance have the one reading of the clock as their time, where the query has
no time column. -/
theorem time_perform_eq {x : Extraction} {points : List MetricPoint} {p : MetricPoint}
    (hAbsent : q.time = none ∨ q.time = some "") (hResult : (q.perform env).result = some x)
    (hPoints : x.result = .ok points) (hMem : p ∈ points) : p.time = env.clock [] := by
  rcases q.exists_concludes_perform env with ⟨o, -, hConcludes⟩ | ⟨hNone, -⟩
  · rw [hResult] at hConcludes
    -- All other conclusions are errors.
    cases hConcludes with
    | rowsGiven => exact time_eq_of_mem hPoints hAbsent hMem
    | tokenFired => cases hPoints
    | commandFailed => cases hPoints
    | sourceFailed => cases hPoints
    | interrupted => cases hPoints
  · rw [hResult] at hNone
    cases hNone

theorem result_perform_quietWith (q : Query) (env : Surroundings) {clock : History → Int64}
    (hClock : clock [] = env.clock []) :
    (q.perform (env.quietWith clock)).result = (q.perform env).result := by
  rw [perform, perform]
  have hNow : (env.quietWith clock).clock [] = env.clock [] := hClock
  simp only [hNow]
  exact q.result_performFrom_quietWith env clock _ _

/-- **What an execution does and comes to, in any surroundings.**
1. Everything in its history could happen next when it did: the clock and the token show what they
   do by then, the token is looked at before the first command, before the call and whenever the
   execution is resumed, and what ends does so as it was bound to.
2. The clock is read first, and never again.
3. This reading is the time of all points, where the query has no time column.
4. At most one call of the data source is made, with the text of the query.
5. The call is made exactly where no look at the token before it finds it fired and every parameter
   has a value, and it is made with these values.
6. If the token has fired before the start, the execution is cancelled, and nothing else happens.
7. It comes to what anything that happens in it decides: a token that is found fired, a command that
   fails, or a reply of the data source; whether an answer fires the token is not looked at.
8. Something does decide, unless what it has begun last does not end and the token does not fire.
9. Later readings of the clock and a token fired by a reply change nothing.
10. An execution against a shell and a data source is a performance. -/
theorem execution_course (q : Query) (env : Surroundings) :
    let run := q.perform env
    let now := env.clock []
    env.Explains run.history ∧
    (∃ rest, run.history = .clockRead now :: rest ∧
      ∀ now', Occurrence.clockRead now' ∉ rest) ∧
    (q.time = none ∨ q.time = some "" → ∀ x points, run.result = some x → x.result = .ok points →
      ∀ p ∈ points, p.time = now) ∧
    (run.history.calls = [] ∨ ∃ params, run.history.calls = [⟨q.sql, params⟩]) ∧
    (∀ params, run.history.calls = [⟨q.sql, params⟩] ↔
      Occurrence.tokenSeen true ∉ run.history.beforeCall ∧
        Param.Evaluates q.params run.history.outcomes params) ∧
    (env.token [.clockRead now] = true →
      run = ⟨[.clockRead now, .tokenSeen true], some ⟨[], .error .cancelled⟩⟩) ∧
    (∀ o ∈ run.history, ∀ r, Execution.Concludes q now o r → run.result = r) ∧
    ((∃ o ∈ run.history, Execution.Concludes q now o run.result) ∨
      run.result = none ∧
        ∃ before o, run.history = before ++ [o] ∧ Execution.Hangs env before o) ∧
    (∀ clock : History → Int64, clock [] = now →
      (q.perform (env.quietWith clock)).result = run.result) ∧
    ∀ shell source start cancelled, q.execute shell source start cancelled =
      (q.perform (.ofParts shell source start cancelled)).report := by
  intro run now
  refine ⟨q.explains_perform env, q.clockRead_perform env,
    fun hAbsent x points hResult hPoints p hMem => ?_,
    q.calls_perform_cases env, q.calls_perform_eq_iff env, fun hFired => ?_,
    fun o hMem r hConcludes => result_perform_eq hMem hConcludes, q.exists_concludes_perform env,
    fun clock hClock => q.result_perform_quietWith env hClock, q.execute_eq_report⟩
  · exact time_perform_eq hAbsent hResult hPoints hMem
  · rcases q.perform_cases env with ⟨-, hOver⟩ | ⟨hUnfired, -⟩
    · exact hOver
    · rw [hFired] at hUnfired
      cases hUnfired

/-- An execution with a command, on a clock that goes on, whose answer fires the token: the call is
made with the output of the command, and the point has the time of the start. -/
theorem execution_course_answer_with_firing :
    let q : Query :=
      { sql := "SELECT", valueKey := KeyMap.ofList [("a", "n")], params := [.text "$(date)"] }
    let env : Surroundings :=
      { clock := fun past => Int64.ofNat (7 + past.length)
        token := fun _ => false
        shell := fun _ _ => .later (.ended (.code 0) [120, 10] [])
        source := fun _ _ => .atOnce (.answered (.ok [[("n", .int 3)]]) true) }
    (q.perform env).history.calls = [⟨"SELECT", [.text "x"]⟩] ∧
      (q.perform env).result = some ⟨[], .ok [⟨"a", 7, .int 3⟩]⟩ := by
  intro q env
  obtain ⟨-, -, -, -, hCall, -, hResult, -⟩ := execution_course q env
  let rows : List RawRow := [[("n", .int 3)]]
  let outcome : Shell.Outcome := .ended (.code 0) [120, 10] []
  have hHistory : (q.perform env).history =
      [.clockRead 7, .tokenSeen false, .commandRun "date", .tokenSeen false,
        .commandEnded "date" outcome, .tokenSeen false, .called ⟨"SELECT", [.text "x"]⟩,
        .replied (.answered (.ok rows) true)] := by cbv
  have hValues : Param.Evaluates q.params [("date", outcome)] [.text "x"] :=
    .command (by cbv) (by cbv) .nil
  constructor
  · refine (hCall [.text "x"]).mpr ?_
    rw [hHistory]
    exact ⟨by simp [History.beforeCall], hValues⟩
  · have hExtract : q.extract (rows.map Row.ofRaw) 7 = ⟨[], .ok [⟨"a", 7, .int 3⟩]⟩ := by cbv
    rw [← hExtract]
    exact hResult (.replied (.answered (.ok rows) true)) (by simp [hHistory]) _ .rowsGiven

end Query

end SqlMetrics
