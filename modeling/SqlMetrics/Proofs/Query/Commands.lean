import SqlMetrics.Proofs.Param.Command
import SqlMetrics.Proofs.Query.Execution

/-!
# The commands of an execution

In whatever surroundings, an execution runs the commands of its parameters in their order and never
two at a time (`Query.exists_pending_perform`), and a command that fails is the last thing that
happens in it (`Query.perform_of_failed`).
-/

namespace SqlMetrics

/-- Parameters that have their values have no command that fails. -/
theorem Param.Evaluates.exists_ok {params values : List Param}
    {outcomes : List (String × Shell.Outcome)}
    (h : Param.Evaluates params outcomes values) {c : String} {o : Shell.Outcome}
    (hMem : (c, o) ∈ outcomes) : ∃ value, Param.ofOutcome c o = .ok value := by
  induction h with
  | nil => cases hMem
  | plain _ _ ih => exact ih hMem
  | command _ hValue _ ih =>
    cases hMem with
    | head => exact ⟨_, hValue⟩
    | tail _ hRest => exact ih hRest

/-! ## Histories -/

namespace History

/-- Whether something is the beginning or the end of a command. -/
def ofCommand : Occurrence → Bool
  | .commandRun _ | .commandEnded _ _ => true
  | _ => false

/-- The beginnings and the ends of commands. -/
def commandCourse (h : History) : History :=
  h.filter ofCommand

/-- Commands one at a time: each ends before the next one begins. -/
def oneAtATime (outcomes : List (String × Shell.Outcome)) : History :=
  outcomes.flatMap fun co => [.commandRun co.1, .commandEnded co.1 co.2]

theorem Unfired.commandCourse_eq_nil {looks : History} (h : looks.Unfired) :
    looks.commandCourse = [] :=
  List.filter_eq_nil_iff.mpr fun o hMem => by simp [h o hMem, ofCommand]

end History

namespace Execution

variable {q : Query} {env : Surroundings} {now : Int64} {past tail : History} {e : Execution}
  {call : SourceCall} {r : Option Extraction}

/-- The commands that an execution has still to run. -/
def commandsAhead : Execution → List String
  | .evaluating _ _ command rest => command :: Param.commandsOf rest
  | .querying _ _ | .finished _ => []

theorem commandsAhead_ofProgress_advance (now : Int64) (values params : List Param) :
    (ofProgress now (Param.Progress.advance values params)).commandsAhead =
      Param.commandsOf params := by
  induction params generalizing values with
  | nil => rfl
  | cons p rest ih =>
    rw [Param.Progress.advance, Param.commandsOf, List.filterMap_cons]
    cases p.command? with
    | none => exact ih (values ++ [p])
    | some c => rfl

theorem commandsAhead_resumeCommand (now : Int64) (values : List Param) (command : String)
    (rest : List Param) (o : Shell.Outcome) :
    (resumeCommand now values command rest o).commandsAhead <+: Param.commandsOf rest := by
  rw [resumeCommand]
  cases Param.ofOutcome command o with
  | error e => exact List.nil_prefix
  | ok value =>
    dsimp only
    rw [commandsAhead_ofProgress_advance]

/-- After the call no command begins or ends. -/
theorem CallEnds.commandCourse_eq_nil (h : CallEnds q env now past call tail r) :
    tail.commandCourse = [] := by
  cases h with
  | cancelled => rfl
  | stuck => rfl
  | replied hGives =>
    rw [History.commandCourse, List.filter_append]
    exact List.append_eq_nil_iff.mpr ⟨hGives.unfired.commandCourse_eq_nil, rfl⟩

theorem commandCourse_commandEnded {looks : History} {command : String} {o : Shell.Outcome}
    (h : looks.Unfired) :
    History.commandCourse (.commandRun command :: (looks ++ .commandEnded command o :: tail)) =
      .commandRun command :: .commandEnded command o :: tail.commandCourse := by
  change .commandRun command :: (looks ++ .commandEnded command o :: tail).filter _ = _
  rw [List.filter_append]
  change .commandRun command :: (looks.commandCourse ++ _) = _
  rw [h.commandCourse_eq_nil]
  rfl

/-- **Commands are run one at a time**, each after the end of the one before it, in their order.
The last one may not have ended. -/
theorem GoesOn.exists_pending (h : GoesOn q env now past e tail r) :
    ∃ pending : List String, pending.length ≤ 1 ∧
      tail.commandCourse = History.oneAtATime tail.outcomes ++ pending.map .commandRun ∧
      tail.outcomes.map Prod.fst ++ pending <+: e.commandsAhead := by
  induction h with
  | finished => exact ⟨[], by simp, rfl, List.nil_prefix⟩
  | @commandCancelled past values command rest =>
    exact ⟨[command], le_rfl, rfl, List.prefix_append [command] (Param.commandsOf rest)⟩
  | @commandStuck past values command rest =>
    exact ⟨[command], le_rfl, rfl, List.prefix_append [command] (Param.commandsOf rest)⟩
  | commandEnded hGives _ _ ih =>
    -- The command has begun and ended before anything that the rest does.
    obtain ⟨pending, hLength, hCourse, hAhead⟩ := ih
    refine ⟨pending, hLength, ?_, ?_⟩
    · rw [commandCourse_commandEnded hGives.unfired, outcomes_commandEnded hGives.unfired, hCourse]
      rfl
    · rw [outcomes_commandEnded hGives.unfired, List.map_cons, List.cons_append]
      exact List.cons_prefix_cons.mpr ⟨rfl, hAhead.trans (commandsAhead_resumeCommand ..)⟩
  | queryCancelled => exact ⟨[], by simp, rfl, List.nil_prefix⟩
  | @called past params tail r _ hEnds =>
    have hOutcomes : History.outcomes (.tokenSeen false :: .called ⟨q.sql, params⟩ :: tail) = [] :=
      hEnds.quiet.2
    have hCourse :
        History.commandCourse (.tokenSeen false :: .called ⟨q.sql, params⟩ :: tail) = [] :=
      hEnds.commandCourse_eq_nil
    rw [hOutcomes, hCourse]
    exact ⟨[], by simp, rfl, List.nil_prefix⟩

theorem CallEnds.commandEnded_not_mem (h : CallEnds q env now past call tail r) (command : String)
    (o : Shell.Outcome) : .commandEnded command o ∉ tail := by
  intro hMem
  have hCourse : Occurrence.commandEnded command o ∈ tail.commandCourse :=
    List.mem_filter.mpr ⟨hMem, rfl⟩
  rw [h.commandCourse_eq_nil] at hCourse
  cases hCourse

/-- **A command that fails is the last thing that happens.** -/
theorem GoesOn.last_of_failed {c : String} {o : Shell.Outcome} {failure : CommandError}
    (h : GoesOn q env now past e tail r) (hMem : .commandEnded c o ∈ tail)
    (hFailed : Param.ofOutcome c o = .error failure) :
    ∃ before, tail = before ++ [.commandEnded c o] := by
  induction h with
  | finished => cases hMem
  | commandCancelled => simp at hMem
  | commandStuck => simp at hMem
  | @commandEnded past values command rest outcome looks tail r hGives _ hGoes ih =>
    rcases List.mem_cons.mp hMem with hRun | hRest
    · cases hRun
    rcases List.mem_append.mp hRest with hLook | hEnd
    · cases hGives.unfired _ hLook
    rcases List.mem_cons.mp hEnd with hSame | hTail
    · -- It is this command, and the execution that is resumed with its failure is over.
      cases hSame
      rw [resumeCommand, hFailed] at hGoes
      cases hGoes
      exact ⟨.commandRun c :: looks, by simp⟩
    · obtain ⟨before, rfl⟩ := ih hTail
      exact ⟨.commandRun command :: (looks ++ .commandEnded command outcome :: before), by simp⟩
  | queryCancelled => simp at hMem
  | called _ hEnds =>
    have hTail := hEnds.commandEnded_not_mem c o
    simp [hTail] at hMem

end Execution

namespace Query

variable {q : Query} {env : Surroundings}

theorem exists_pending_perform (q : Query) (env : Surroundings) :
    ∃ pending : List String, pending.length ≤ 1 ∧
      (q.perform env).history.commandCourse =
        History.oneAtATime (q.perform env).history.outcomes ++ pending.map .commandRun ∧
      (q.perform env).history.outcomes.map Prod.fst ++ pending <+: Param.commandsOf q.params := by
  rcases q.perform_cases env with ⟨-, hOver⟩ | ⟨-, tail, hHistory, hTail⟩
  · rw [hOver]
    exact ⟨[], by simp, rfl, List.nil_prefix⟩
  · obtain ⟨pending, hLength, hCourse, hAhead⟩ := hTail.exists_pending
    rw [hHistory]
    refine ⟨pending, hLength, hCourse, hAhead.trans ?_⟩
    change (Execution.ofProgress _ (Param.Progress.advance [] q.params)).commandsAhead <+: _
    rw [Execution.commandsAhead_ofProgress_advance]

/-- An execution with a command that fails has come to its error, without any call. -/
theorem perform_of_failed {c : String} {o : Shell.Outcome} {e : CommandError}
    (hMem : .commandEnded c o ∈ (q.perform env).history)
    (hFailed : Param.ofOutcome c o = .error e) :
    (∃ before, (q.perform env).history = before ++ [.commandEnded c o]) ∧
      (q.perform env).history.calls = [] ∧
      (q.perform env).result = some ⟨[], .error (.params e)⟩ := by
  refine ⟨?last, ?calls, result_perform_eq hMem (.commandFailed hFailed)⟩
  case last =>
    rcases q.perform_cases env with ⟨-, hOver⟩ | ⟨-, tail, hHistory, hTail⟩
    · rw [hOver] at hMem
      simp [Performance.cancelled] at hMem
    · rw [hHistory] at hMem ⊢
      obtain ⟨before, rfl⟩ := hTail.last_of_failed (by simpa using hMem) hFailed
      exact ⟨_ :: _ :: before, rfl⟩
  case calls =>
    rcases q.calls_perform_cases env with hNone | ⟨params, hCall⟩
    · exact hNone
    · -- With a call all parameters would have their values.
      have hOutcome : (c, o) ∈ (q.perform env).history.outcomes :=
        List.mem_filterMap.mpr ⟨_, hMem, rfl⟩
      obtain ⟨-, hEvaluates⟩ := (q.calls_perform_eq_iff env params).mp hCall
      obtain ⟨value, hOk⟩ := hEvaluates.exists_ok hOutcome
      rw [hFailed] at hOk
      cases hOk

end Query

end SqlMetrics
