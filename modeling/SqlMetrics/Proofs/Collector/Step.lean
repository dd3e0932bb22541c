import SqlMetrics.Collector.Machine
import SqlMetrics.Proofs.Query.Progress

/-!
# What one move does

`State.step?` is a case distinction over moves, and inside it over the phases of tasks.  This file
says once what a move can do, so that no other proof opens `State.step?`:

- **Task effects**: a move of a task reads nothing but the task and the token, and what it does is
  a `TaskEffect`: notes, external actions, whether the token fires, and the next phase.
- **Steps**: `Step` is the machine as a relation with one constructor per kind of move; every move
  of a task is the one constructor `Step.task`.
- **Agreement**: `step?_eq_some_iff` states that the relation and the function are the same machine.
-/

namespace SqlMetrics

/-- Whether an error can be the error of the query with this index and this service. -/
def CollectorError.Concerns (index : Nat) (service : String) : CollectorError → Prop
  | .query i _ => i = index
  | .exporting s _ => s = service
  | .crashed _ => True
  | .cancelled => False

namespace Collector

/-! ## Task effects -/

/-- What one move of a task does. -/
structure TaskEffect where
  /-- What the move notes. -/
  notes : List Event
  /-- What the move does outside. -/
  externals : List External
  /-- Whether the move fires the token. -/
  fires : Bool
  /-- The phase in which the move leaves the task. -/
  phase : Phase

namespace Phase

/-- Whether a task in this phase is over. -/
def isEnded : Phase → Bool
  | .ended _ => true
  | _ => false

end Phase

namespace TaskEffect

/-- Whether the move ends the task. -/
def ends (e : TaskEffect) : Bool :=
  e.phase.isEnded

/-- The task ends without having done anything else. -/
def ending (error : Option CollectorError) (fires : Bool) : TaskEffect :=
  ⟨[], [], fires, .ended error⟩

/-- What comes of an extraction.  The points are exported unless the token has fired by then. -/
def ofExtraction (cfg : Settings) (index : Nat) (q : Query) (fired : Bool) (x : Extraction) :
    TaskEffect :=
  let notes := x.skips.map .skipped
  match x.result with
  | .error e => ⟨notes, [], false, .ended (some (.query index e))⟩
  | .ok points =>
    if fired then ⟨notes, [], false, .ended (some (.query index .cancelled))⟩
    else
      ⟨notes, [.exportBegun index (q.serviceOr cfg.defaultService) points], false,
        .exporting points⟩

/-- What comes of an execution that has gone as far as it can. -/
def ofExecution (cfg : Settings) (index : Nat) (q : Query) (fired : Bool) :
    Execution → TaskEffect
  | .evaluating now values command rest =>
    ⟨[], [.command index command], false, .executing (.evaluating now values command rest)⟩
  | .querying now params =>
    ⟨[], [.call index ⟨q.sql, params⟩], false, .executing (.querying now params)⟩
  | .finished x => ofExtraction cfg index q fired x

/-- What comes of what the data source replies. -/
def ofSourceReply (cfg : Settings) (index : Nat) (q : Query) (now : Int64) (params : List Param) :
    Reply SourceAnswer → TaskEffect
  | .answered answer fires =>
    { ofExtraction cfg index q fires (Execution.resumeAnswer q now answer) with fires := fires }
  | .interrupted => ⟨[], [], true, .executing (.querying now params)⟩
  | .crashed report fires => ending (some (.crashed report)) fires

/-- What comes of what the exporter replies. -/
def ofExportReply (cfg : Settings) (index : Nat) (q : Query) (points : List MetricPoint) :
    Reply ExportAnswer → TaskEffect
  | .answered (.ok ()) fires =>
    let service := q.serviceOr cfg.defaultService
    ⟨[.exported index service points.length], [.delivered index service points], fires,
      .ended none⟩
  | .answered (.error e) fires =>
    ending (some (.exporting (q.serviceOr cfg.defaultService) e)) fires
  | .interrupted => ⟨[], [], true, .exporting points⟩
  | .crashed report fires => ending (some (.crashed report)) fires

end TaskEffect

/-- The task that a move is about. -/
def Move.index? : Move → Option Nat
  | .start index _ | .commandEnds index _ | .sourceReplies index _ | .exportReplies index _
  | .wake index => some index
  | .acquire | .spawn | .close | .fire | .see | .finish => none

/-- What a move does to its task, where the move is possible. -/
def Task.effect? (cfg : Settings) (fired : Bool) (t : Task) : Move → Option TaskEffect
  | .start index now =>
    match t.phase with
    | .spawned =>
      some (TaskEffect.ofExecution cfg index t.query fired (Execution.start t.query now fired))
    | _ => none
  | .commandEnds index outcome =>
    match t.phase, fired with
    | .executing (.evaluating now values command rest), false =>
      some (TaskEffect.ofExecution cfg index t.query false
        (Execution.resumeCommand now values command rest outcome))
    | _, _ => none
  | .sourceReplies index reply =>
    match t.phase, fired with
    | .executing (.querying now params), false =>
      some (TaskEffect.ofSourceReply cfg index t.query now params reply)
    | _, _ => none
  | .exportReplies index reply =>
    match t.phase, fired with
    | .exporting points, false => some (TaskEffect.ofExportReply cfg index t.query points reply)
    | _, _ => none
  | .wake index =>
    match t.phase, fired with
    | .executing _, true | .exporting _, true =>
      some (TaskEffect.ending (some (.query index .cancelled)) false)
    | _, _ => none
  | .acquire | .spawn | .close | .fire | .see | .finish => none

/-- The moves of a task, each with the phase in which the task makes it and with what it does. -/
inductive TaskMove (cfg : Settings) (fired : Bool) (t : Task) : Move → TaskEffect → Prop where
  /-- The task starts. -/
  | start (index : Nat) (now : Int64) (hPhase : t.phase = .spawned) :
      TaskMove cfg fired t (.start index now)
        (.ofExecution cfg index t.query fired (Execution.start t.query now fired))
  /-- The command that the task waits for has ended. -/
  | commandEnds (index : Nat) (outcome : Shell.Outcome) {now : Int64} {values : List Param}
      {command : String} {rest : List Param} (hFired : fired = false)
      (hPhase : t.phase = .executing (.evaluating now values command rest)) :
      TaskMove cfg fired t (.commandEnds index outcome)
        (.ofExecution cfg index t.query false
          (Execution.resumeCommand now values command rest outcome))
  /-- The data source has replied. -/
  | sourceReplies (index : Nat) (reply : Reply SourceAnswer) {now : Int64} {params : List Param}
      (hFired : fired = false) (hPhase : t.phase = .executing (.querying now params)) :
      TaskMove cfg fired t (.sourceReplies index reply)
        (.ofSourceReply cfg index t.query now params reply)
  /-- The exporter has replied. -/
  | exportReplies (index : Nat) (reply : Reply ExportAnswer) {points : List MetricPoint}
      (hFired : fired = false) (hPhase : t.phase = .exporting points) :
      TaskMove cfg fired t (.exportReplies index reply)
        (.ofExportReply cfg index t.query points reply)
  /-- The task is woken because the token has fired. -/
  | wake (index : Nat) (hFired : fired = true) (hWaits : t.hasEnded = false) :
      TaskMove cfg fired t (.wake index) (.ending (some (.query index .cancelled)) false)

/-- How many moves a task is from its end, at most. -/
def Task.distance (t : Task) : Nat :=
  match t.phase with
  | .spawned => t.query.params.length + 5
  | .executing (.evaluating _ _ _ rest) => rest.length + 4
  | .executing _ => 3
  | .exporting _ => 2
  | .ended _ => 0

/-- The ways in which a move takes a task of this index from one phase on. -/
inductive Change (cfg : Settings) (fired : Bool) (index : Nat) (t : Task) : TaskEffect → Prop where
  /-- It begins a parameter command. -/
  | command {now : Int64} {values : List Param} {command : String} {rest : List Param}
      (hFired : fired = false) (hCloser : rest.length + 4 < t.distance) :
      Change cfg fired index t
        ⟨[], [.command index command], false, .executing (.evaluating now values command rest)⟩
  /-- It begins its call of the data source. -/
  | call {now : Int64} {params : List Param} (hFired : fired = false)
      (hCloser : 3 < t.distance) :
      Change cfg fired index t
        ⟨[], [.call index ⟨t.query.sql, params⟩], false, .executing (.querying now params)⟩
  /-- It begins its export. -/
  | exporting {notes : List SkipEvent} {points : List MetricPoint} (hFired : fired = false)
      {now : Int64} {params : List Param} (hPhase : t.phase = .executing (.querying now params)) :
      Change cfg fired index t
        ⟨notes.map .skipped,
          [.exportBegun index (t.query.serviceOr cfg.defaultService) points], false,
          .exporting points⟩
  /-- It fires the token and goes on waiting. -/
  | interrupted (hFired : fired = false) (hStarted : t.phase ≠ .spawned) :
      Change cfg fired index t ⟨[], [], true, t.phase⟩
  /-- Its export has reached the service, and it ends. -/
  | delivered {points : List MetricPoint} {fires : Bool} (hFired : fired = false)
      (hPhase : t.phase = .exporting points) :
      Change cfg fired index t
        ⟨[.exported index (t.query.serviceOr cfg.defaultService) points.length],
          [.delivered index (t.query.serviceOr cfg.defaultService) points], fires, .ended none⟩
  /-- It ends with an error. -/
  | failed (notes : List SkipEvent) {error : CollectorError} {fires : Bool}
      (hError : error.Concerns index (t.query.serviceOr cfg.defaultService)) :
      Change cfg fired index t ⟨notes.map .skipped, [], fires, .ended (some error)⟩

namespace State

/-- The state after a move of a task. -/
def apply (s : State) (index : Nat) (t : Task) (e : TaskEffect) : State :=
  { s with
    free := s.free + e.ends.toNat
    tasks := s.tasks.set index { t with phase := e.phase }
    unseen := s.unseen ++ if e.ends then [index] else []
    fired := s.fired || e.fires
    events := s.events ++ e.notes
    externals := s.externals ++ e.externals }

/-- What is noted of an ended task when another one has failed before. -/
def laterFailure (s : State) (index : Nat) : List Event :=
  if s.firstError.isSome then (s.endError? index).toList.map .queryFailed else []

/-- The warning about the queries that are left over when the admission ends. -/
def leftover (s : State) : List Event :=
  if s.pending = [] then []
  else [.notStarted s.tasks.length (s.tasks.length + s.pending.length)]

/-- What a run returns: the first failure that it has seen counts for more than queries that were
never started. -/
def verdict (s : State) : Except CollectorError Unit :=
  match s.firstError with
  | some e => .error e
  | none => if s.pending = [] then .ok () else .error .cancelled

end State

/-! ## Changes of tasks -/

namespace Change

variable {cfg : Settings} {fired : Bool} {index : Nat} {t : Task}

theorem of_extraction {x : Extraction} {now : Int64} {params : List Param} (fires : Bool)
    (hPhase : t.phase = .executing (.querying now params)) (hFired : fired = false) :
    Change cfg fired index t
      { TaskEffect.ofExtraction cfg index t.query fires x with fires := fires } := by
  unfold TaskEffect.ofExtraction
  cases x.result with
  | error e => exact .failed _ rfl
  | ok points =>
    cases fires with
    | true => exact .failed _ rfl
    | false => exact .exporting hFired hPhase

theorem of_advance (now : Int64) (values params : List Param) (hFired : fired = false)
    (hCloser : params.length + 3 < t.distance) :
    Change cfg fired index t
      (TaskEffect.ofExecution cfg index t.query fired
        (.ofProgress now (Param.Progress.advance values params))) := by
  cases hAdvance : Param.Progress.advance values params with
  | finished values => exact .call hFired (by omega)
  | waiting values command rest =>
    have hRest := Param.length_lt_of_advance hAdvance
    exact .command hFired (by omega)

end Change

namespace TaskMove

variable {cfg : Settings} {fired : Bool} {t : Task} {m : Move} {e : TaskEffect}

/-- Every effect is that of a move of the task. -/
theorem of_effect? (h : t.effect? cfg fired m = some e) : TaskMove cfg fired t m e := by
  cases m with
  | acquire | spawn | close | fire | see | finish => cases h
  | start index now =>
    simp only [Task.effect?] at h
    split at h
    · next hPhase =>
      cases h
      exact .start index now hPhase
    · cases h
  | commandEnds index outcome =>
    simp only [Task.effect?] at h
    split at h
    · next hPhase =>
      cases h
      exact .commandEnds index outcome rfl hPhase
    · cases h
  | sourceReplies index reply =>
    simp only [Task.effect?] at h
    split at h
    · next hPhase =>
      cases h
      exact .sourceReplies index reply rfl hPhase
    · cases h
  | exportReplies index reply =>
    simp only [Task.effect?] at h
    split at h
    · next hPhase =>
      cases h
      exact .exportReplies index reply rfl hPhase
    · cases h
  | wake index =>
    simp only [Task.effect?] at h
    split at h
    · next hPhase =>
      cases h
      exact .wake index rfl (by simp [Task.hasEnded, hPhase])
    · next hPhase =>
      cases h
      exact .wake index rfl (by simp [Task.hasEnded, hPhase])
    · cases h

/-- A task that makes a move is not over. -/
theorem hasEnded (h : TaskMove cfg fired t m e) : t.hasEnded = false := by
  cases h with
  | start index now hPhase => simp [Task.hasEnded, hPhase]
  | commandEnds index outcome hFired hPhase => simp [Task.hasEnded, hPhase]
  | sourceReplies index reply hFired hPhase => simp [Task.hasEnded, hPhase]
  | exportReplies index reply hFired hPhase => simp [Task.hasEnded, hPhase]
  | wake index hFired hWaits => exact hWaits

/-- Every move of a task is one of the changes. -/
theorem change (h : TaskMove cfg fired t m e) {index : Nat} (hIndex : m.index? = some index) :
    Change cfg fired index t e := by
  cases h with
  | start i now hPhase =>
    cases hIndex
    cases fired with
    | true =>
      -- A task that starts after the firing makes no parameter command; it ends as cancelled.
      exact .failed [] rfl
    | false => exact .of_advance now [] _ rfl (by simp [Task.distance, hPhase])
  | @commandEnds i outcome now values command rest hFired hPhase =>
    cases hIndex
    subst hFired
    unfold Execution.resumeCommand
    cases Param.ofOutcome command outcome with
    | error e => exact .failed [] rfl
    | ok value => exact .of_advance now _ rest rfl (by simp [Task.distance, hPhase])
  | sourceReplies i reply hFired hPhase =>
    cases hIndex
    cases reply with
    | answered answer fires => exact .of_extraction fires hPhase hFired
    | interrupted =>
      -- The effect names the phase of the task by its parts, the change by the task.
      have hChange : Change cfg fired index t ⟨[], [], true, t.phase⟩ :=
        .interrupted hFired (by simp [hPhase])
      rw [hPhase] at hChange
      exact hChange
    | crashed report fires => exact .failed [] trivial
  | exportReplies i reply hFired hPhase =>
    cases hIndex
    cases reply with
    | answered answer fires =>
      cases answer with
      | error e => exact .failed [] rfl
      | ok u => exact .delivered hFired hPhase
    | interrupted =>
      have hChange : Change cfg fired index t ⟨[], [], true, t.phase⟩ :=
        .interrupted hFired (by simp [hPhase])
      rw [hPhase] at hChange
      exact hChange
    | crashed report fires => exact .failed [] trivial
  | wake i hFired hWaits =>
    cases hIndex
    exact .failed [] rfl

end TaskMove

theorem Change.of_effect? {cfg : Settings} {fired : Bool} {index : Nat} {t : Task} {m : Move}
    {e : TaskEffect} (hIndex : m.index? = some index) (h : t.effect? cfg fired m = some e) :
    Change cfg fired index t e :=
  (TaskMove.of_effect? h).change hIndex

namespace Task

theorem hasEnded_eq (t : Task) : t.hasEnded = t.phase.isEnded := by
  obtain ⟨q, phase⟩ := t
  cases phase <;> rfl

theorem hasEnded_of_effect? {cfg : Settings} {fired : Bool} {t : Task} {m : Move}
    {e : TaskEffect} (h : t.effect? cfg fired m = some e) : t.hasEnded = false :=
  (TaskMove.of_effect? h).hasEnded

/-- A task that has made a move has started. -/
theorem phase_ne_spawned {cfg : Settings} {fired : Bool} {t : Task} {m : Move} {index : Nat}
    {e : TaskEffect} (hIndex : m.index? = some index) (h : t.effect? cfg fired m = some e) :
    e.phase ≠ .spawned := by
  cases Change.of_effect? hIndex h with
  | interrupted hFired hStarted => exact hStarted
  | command | call | exporting | delivered | failed => exact nofun

/-- **Once the token has fired, a task does nothing more than end as cancelled.** -/
theorem effect?_of_fired {cfg : Settings} {t : Task} {m : Move} {index : Nat} {e : TaskEffect}
    (hIndex : m.index? = some index) (h : t.effect? cfg true m = some e) :
    e = .ending (some (.query index .cancelled)) false := by
  cases TaskMove.of_effect? h with
  | start i now hPhase =>
    -- The execution is refused before its first parameter.
    cases hIndex
    rfl
  | commandEnds i outcome hFired => cases hFired
  | sourceReplies i reply hFired => cases hFired
  | exportReplies i reply hFired => cases hFired
  | wake i hFired hWaits =>
    cases hIndex
    rfl

end Task

/-- A change brings its task closer to its end, except where it fires the token and waits on. -/
theorem Change.distance_lt {cfg : Settings} {fired : Bool} {index : Nat} {t : Task}
    {e : TaskEffect} (h : Change cfg fired index t e) (hUnended : t.hasEnded = false) :
    Task.distance ⟨t.query, e.phase⟩ + e.ends.toNat < t.distance ∨
      (fired = false ∧ e = ⟨[], [], true, t.phase⟩) := by
  -- A task that is not over is two moves from its end: one for the end, one for the look at it.
  have hTwo : 2 ≤ t.distance := by
    obtain ⟨q, phase⟩ := t
    cases phase with
    | executing x => cases x <;> simp [Task.distance]
    | ended error => cases hUnended
    | _ => simp [Task.distance]
  cases h with
  | command hFired hCloser => exact .inl (by simpa [Task.distance, TaskEffect.ends, Phase.isEnded])
  | call hFired hCloser => exact .inl (by simpa [Task.distance, TaskEffect.ends, Phase.isEnded])
  | exporting hFired hPhase =>
    exact .inl (by simp [Task.distance, TaskEffect.ends, Phase.isEnded, hPhase])
  | interrupted hFired => exact .inr ⟨hFired, rfl⟩
  | delivered hFired hPhase =>
    exact .inl (by simp [Task.distance, TaskEffect.ends, Phase.isEnded, hPhase])
  | failed notes hError =>
    refine .inl ?_
    simp only [Task.distance, TaskEffect.ends, Phase.isEnded]
    exact hTwo

/-! ## Frames

What a move of a task does to each part of a state. -/

namespace State

variable (s : State) (index : Nat) (t : Task) (e : TaskEffect)

@[simp] theorem apply_admission : (s.apply index t e).admission = s.admission := rfl

@[simp] theorem apply_pending : (s.apply index t e).pending = s.pending := rfl

@[simp] theorem apply_tasks :
    (s.apply index t e).tasks = s.tasks.set index { t with phase := e.phase } := rfl

@[simp] theorem apply_fired : (s.apply index t e).fired = (s.fired || e.fires) := rfl

@[simp] theorem apply_firstError : (s.apply index t e).firstError = s.firstError := rfl

@[simp] theorem apply_events : (s.apply index t e).events = s.events ++ e.notes := rfl

@[simp] theorem apply_externals :
    (s.apply index t e).externals = s.externals ++ e.externals := rfl

@[simp] theorem apply_returned : (s.apply index t e).returned = s.returned := rfl

/-- After a move of a task, a task is the one that has moved or one that was there before. -/
theorem getElem?_apply {s : State} {index : Nat} {t : Task} (hTask : s.tasks[index]? = some t)
    {e : TaskEffect} {i : Nat} {u : Task} (h : (s.apply index t e).tasks[i]? = some u) :
    (i = index ∧ u = ⟨t.query, e.phase⟩) ∨ (i ≠ index ∧ s.tasks[i]? = some u) := by
  obtain ⟨hlt, -⟩ := List.getElem?_eq_some_iff.mp hTask
  by_cases hSame : i = index
  · subst hSame
    exact .inl ⟨rfl, by simpa [hlt, eq_comm] using h⟩
  · rw [apply_tasks, List.getElem?_set_ne fun hEq => hSame hEq.symm] at h
    exact .inr ⟨hSame, h⟩

/-- After a task has been added, a task is the new one or one that was there before. -/
theorem getElem?_append_spawned {tasks : List Task} {q : Query} {i : Nat} {u : Task}
    (h : (tasks ++ [⟨q, .spawned⟩])[i]? = some u) :
    (i = tasks.length ∧ u = ⟨q, .spawned⟩) ∨ tasks[i]? = some u := by
  rw [List.getElem?_append] at h
  split at h
  · exact .inr h
  · next hNew =>
    have hMem : u ∈ [(⟨q, .spawned⟩ : Task)] := List.mem_of_getElem? h
    obtain ⟨hlt, -⟩ := List.getElem?_eq_some_iff.mp h
    rw [List.length_singleton] at hlt
    exact .inl ⟨by omega, List.mem_singleton.mp hMem⟩

end State

/-! ## Steps -/

/-- The machine as a relation: what a move does to a state in which it is possible. -/
inductive Step (cfg : Settings) (s : State) : Move → State → Prop where
  /-- The admission loop takes a permit for the next query. -/
  | acquire (hSeeking : s.admission = .seeking) (hPending : s.pending ≠ [])
      (hFired : s.fired = false) (hFree : 0 < s.free) :
      Step cfg s .acquire { s with admission := .holding, free := s.free - 1 }
  /-- The admission loop hands its permit to a new task. -/
  | spawn {q : Query} {rest : List Query} (hHolding : s.admission = .holding)
      (hPending : s.pending = q :: rest) :
      Step cfg s .spawn
        { s with admission := .seeking, pending := rest, tasks := s.tasks ++ [⟨q, .spawned⟩] }
  /-- The admission loop ends. -/
  | close (hSeeking : s.admission = .seeking) (hDone : s.pending = [] ∨ s.fired = true) :
      Step cfg s .close { s with admission := .closed, events := s.events ++ s.leftover }
  /-- The token fires from outside. -/
  | fire (hFired : s.fired = false) : Step cfg s .fire { s with fired := true }
  /-- A task makes a move. -/
  | task {m : Move} {index : Nat} {t : Task} {e : TaskEffect} (hIndex : m.index? = some index)
      (hTask : s.tasks[index]? = some t) (hEffect : t.effect? cfg s.fired m = some e) :
      Step cfg s m (s.apply index t e)
  /-- The run looks at the next ended task. -/
  | see {index : Nat} {rest : List Nat} (hClosed : s.admission = .closed)
      (hUnseen : s.unseen = index :: rest) :
      Step cfg s .see
        { s with
          unseen := rest
          firstError := s.firstError.or (s.endError? index)
          events := s.events ++ s.laterFailure index }
  /-- The run returns. -/
  | finish (hClosed : s.admission = .closed) (hUnseen : s.unseen = [])
      (hEnded : s.tasks.all Task.hasEnded = true) (hReturned : s.returned = none) :
      Step cfg s .finish { s with returned := some s.verdict }

/-! ## The function makes the steps -/

namespace State

theorem modify_eq_set {l : List Task} {i : Nat} {t : Task} (h : l[i]? = some t)
    (f : Task → Task) : l.modify i f = l.set i (f t) := by
  obtain ⟨hlt, heq⟩ := List.getElem?_eq_some_iff.mp h
  apply List.ext_getElem?
  intro j
  by_cases hij : i = j
  · subst hij
    simp [hlt, heq]
  · simp [hij]

theorem seeEnd_eq (s : State) (index : Nat) (rest : List Nat) :
    { s with unseen := rest }.seeEnd (s.endError? index) =
      { s with
        unseen := rest
        firstError := s.firstError.or (s.endError? index)
        events := s.events ++ s.laterFailure index } := by
  cases hError : s.endError? index <;> cases hFirst : s.firstError <;>
    simp [seeEnd, note, laterFailure, hError, hFirst]

theorem endTask_eq_apply {s : State} {index : Nat} {t : Task} (h : s.tasks[index]? = some t)
    (error : Option CollectorError) :
    s.endTask index error = s.apply index t (.ending error false) := by
  simp [endTask, setPhase, apply, modify_eq_set h, TaskEffect.ending, TaskEffect.ends,
    Phase.isEnded]

theorem settleExtraction_eq_apply {s : State} {index : Nat} {q : Query} {phase : Phase}
    (h : s.tasks[index]? = some ⟨q, phase⟩) (cfg : Settings) (x : Extraction) :
    s.settleExtraction cfg index q x =
      s.apply index ⟨q, phase⟩ (.ofExtraction cfg index q s.fired x) := by
  cases hResult : x.result with
  | error e =>
    simp [settleExtraction, TaskEffect.ofExtraction, hResult, note, endTask, setPhase, apply,
      modify_eq_set h, TaskEffect.ends, Phase.isEnded]
  | ok points =>
    cases hFired : s.fired <;>
      simp [settleExtraction, TaskEffect.ofExtraction, hResult, hFired, note, act, endTask,
        setPhase, apply, modify_eq_set h, TaskEffect.ends, Phase.isEnded]

theorem settle_eq_apply {s : State} {index : Nat} {q : Query} {phase : Phase}
    (h : s.tasks[index]? = some ⟨q, phase⟩) (cfg : Settings) (e : Execution) :
    s.settle cfg index q e =
      s.apply index ⟨q, phase⟩ (.ofExecution cfg index q s.fired e) := by
  cases e with
  | evaluating now values command rest =>
    simp [settle, TaskEffect.ofExecution, act, setPhase, apply, modify_eq_set h, TaskEffect.ends,
      Phase.isEnded]
  | querying now params =>
    simp [settle, TaskEffect.ofExecution, act, setPhase, apply, modify_eq_set h, TaskEffect.ends,
      Phase.isEnded]
  | finished x => exact settleExtraction_eq_apply h cfg x

/-- An effect that fires the token is an effect on the state in which the token has fired. -/
theorem apply_of_fired {s : State} (hFired : s.fired = false) (index : Nat) (t : Task)
    {e : TaskEffect} (hFires : e.fires = false) (fires : Bool) :
    { s with fired := fires }.apply index t e = s.apply index t { e with fires := fires } := by
  simp only [apply, TaskEffect.ends, hFired, hFires, Bool.or_false, Bool.false_or]
  rfl

theorem apply_interrupted {s : State} {index : Nat} {t : Task} (h : s.tasks[index]? = some t)
    (hEnded : t.phase.isEnded = false) :
    s.apply index t ⟨[], [], true, t.phase⟩ = { s with fired := true } := by
  obtain ⟨hlt, heq⟩ := List.getElem?_eq_some_iff.mp h
  have hSet : s.tasks.set index t = s.tasks := by rw [← heq]; exact List.set_getElem_self hlt
  simp [apply, TaskEffect.ends, hEnded, hSet]

end State

theorem ofExtraction_fires (cfg : Settings) (index : Nat) (q : Query) (fired : Bool)
    (x : Extraction) : (TaskEffect.ofExtraction cfg index q fired x).fires = false := by
  unfold TaskEffect.ofExtraction
  cases x.result with
  | error e => rfl
  | ok points => cases fired <;> rfl

/-- An execution that goes on without an answer of the data source does not fire the token. -/
theorem ofExecution_fires (cfg : Settings) (index : Nat) (q : Query) (fired : Bool)
    (x : Execution) : (TaskEffect.ofExecution cfg index q fired x).fires = false := by
  cases x with
  | evaluating | querying => rfl
  | finished x => exact ofExtraction_fires cfg index q fired x

namespace State

theorem sourceReply_eq_apply {s : State} {index : Nat} {q : Query} {now : Int64}
    {params : List Param} (h : s.tasks[index]? = some ⟨q, .executing (.querying now params)⟩)
    (hFired : s.fired = false) (cfg : Settings) (reply : Reply SourceAnswer) :
    s.step? cfg (.sourceReplies index reply) =
      some (s.apply index ⟨q, .executing (.querying now params)⟩
        (.ofSourceReply cfg index q now params reply)) := by
  have hTask (fires : Bool) : { s with fired := fires }.tasks[index]? =
      some ⟨q, .executing (.querying now params)⟩ := h
  simp only [step?, h, hFired, Bool.false_eq_true, if_false]
  -- The machine fires the token first and then settles, so each case moves the firing behind.
  cases reply with
  | answered answer fires =>
    refine congrArg some ((settleExtraction_eq_apply (hTask fires) cfg _).trans ?_)
    exact apply_of_fired hFired _ _ (ofExtraction_fires ..) fires
  | interrupted => exact congrArg some (apply_interrupted h rfl).symm
  | crashed report fires =>
    refine congrArg some ((endTask_eq_apply (hTask fires) _).trans ?_)
    exact apply_of_fired hFired _ _ rfl fires

theorem exportReply_eq_apply {s : State} {index : Nat} {q : Query} {points : List MetricPoint}
    (h : s.tasks[index]? = some ⟨q, .exporting points⟩) (hFired : s.fired = false)
    (cfg : Settings) (reply : Reply ExportAnswer) :
    s.step? cfg (.exportReplies index reply) =
      some (s.apply index ⟨q, .exporting points⟩ (.ofExportReply cfg index q points reply)) := by
  have hTask (fires : Bool) : { s with fired := fires }.tasks[index]? =
      some ⟨q, .exporting points⟩ := h
  simp only [step?, h, hFired, Bool.false_eq_true, if_false]
  cases reply with
  | answered answer fires =>
    cases answer with
    | error e =>
      refine congrArg some ((endTask_eq_apply (hTask fires) _).trans ?_)
      exact apply_of_fired hFired _ _ rfl fires
    | ok u =>
      simp [endTask, setPhase, note, act, apply, modify_eq_set h, TaskEffect.ofExportReply,
        TaskEffect.ends, Phase.isEnded, hFired]
  | interrupted => exact congrArg some (apply_interrupted h rfl).symm
  | crashed report fires =>
    refine congrArg some ((endTask_eq_apply (hTask fires) _).trans ?_)
    exact apply_of_fired hFired _ _ rfl fires

/-- **A move of a task is its effect**: where a move is about a task, the machine does what the
effect of the move on this task says, and nothing where there is no effect. -/
theorem step?_task {cfg : Settings} {s : State} {m : Move} {index : Nat} {t : Task}
    (hIndex : m.index? = some index) (hTask : s.tasks[index]? = some t) :
    s.step? cfg m = (t.effect? cfg s.fired m).map (s.apply index t) := by
  obtain ⟨q, phase⟩ := t
  -- Both sides look at the phase and the token; where they do not fit the move, both are `none`.
  cases m with
  | acquire | spawn | close | fire | see | finish => cases hIndex
  | start i now =>
    cases hIndex
    cases phase <;> simp [step?, hTask, Task.effect?, settle_eq_apply hTask]
  | commandEnds i outcome =>
    cases hIndex
    cases hFired : s.fired <;> cases phase with
    | executing e => cases e <;> simp [step?, hTask, Task.effect?, hFired, settle_eq_apply hTask]
    | _ => simp [step?, hTask, Task.effect?]
  | sourceReplies i reply =>
    cases hIndex
    cases phase with
    | executing e =>
      cases e with
      | querying now params =>
        cases hFired : s.fired with
        | false => simp [sourceReply_eq_apply hTask hFired, Task.effect?]
        | true => simp [step?, hTask, Task.effect?, hFired]
      | _ => simp [step?, hTask, Task.effect?]
    | _ => simp [step?, hTask, Task.effect?]
  | exportReplies i reply =>
    cases hIndex
    cases phase with
    | exporting points =>
      cases hFired : s.fired with
      | false => simp [exportReply_eq_apply hTask hFired, Task.effect?]
      | true => simp [step?, hTask, Task.effect?, hFired]
    | _ => simp [step?, hTask, Task.effect?]
  | wake i =>
    cases hIndex
    cases hFired : s.fired <;> cases phase <;>
      simp [step?, hTask, Task.effect?, hFired, endTask_eq_apply hTask]

theorem step?_task_none {cfg : Settings} {s : State} {m : Move} {index : Nat}
    (hIndex : m.index? = some index) (hTask : s.tasks[index]? = none) : s.step? cfg m = none := by
  cases m with
  | acquire | spawn | close | fire | see | finish => cases hIndex
  | start | commandEnds | sourceReplies | exportReplies | wake =>
    cases hIndex
    simp [step?, hTask]

end State

/-- Every move that the function makes is a step. -/
theorem Step.of_step? {cfg : Settings} {s s' : State} {m : Move} (h : s.step? cfg m = some s') :
    Step cfg s m s' := by
  cases hIndex : m.index? with
  | some index =>
    -- All moves of tasks at once, by their effects.
    cases hTask : s.tasks[index]? with
    | none => simp [State.step?_task_none hIndex hTask] at h
    | some t =>
      rw [State.step?_task hIndex hTask] at h
      obtain ⟨e, hEffect, rfl⟩ := Option.map_eq_some_iff.mp h
      exact .task hIndex hTask hEffect
  | none =>
    cases m with
    | start | commandEnds | sourceReplies | exportReplies | wake => cases hIndex
    | acquire =>
      simp only [State.step?, Option.ite_none_right_eq_some, Option.some.injEq] at h
      obtain ⟨⟨hSeeking, hPending, hFired, hFree⟩, rfl⟩ := h
      exact .acquire hSeeking hPending hFired hFree
    | spawn =>
      simp only [State.step?] at h
      split at h
      · next q rest hHolding hPending =>
        cases h
        exact .spawn hHolding hPending
      · cases h
    | close =>
      simp only [State.step?, Option.ite_none_right_eq_some, Option.some.injEq] at h
      obtain ⟨⟨hSeeking, hDone⟩, rfl⟩ := h
      -- The machine notes nothing where the relation appends an empty list.
      have hStep : Step cfg s .close _ := .close hSeeking hDone
      cases hPending : s.pending <;>
        simpa [State.leftover, State.note, hPending] using hStep
    | fire =>
      simp only [State.step?, Option.ite_none_left_eq_some, Option.some.injEq] at h
      obtain ⟨hFired, rfl⟩ := h
      exact .fire (by simpa using hFired)
    | see =>
      simp only [State.step?] at h
      split at h
      · next index rest hClosed hUnseen =>
        cases h
        rw [State.seeEnd_eq]
        exact .see hClosed hUnseen
      · cases h
    | finish =>
      simp only [State.step?, Option.ite_none_right_eq_some, Option.some.injEq] at h
      obtain ⟨⟨hClosed, hUnseen, hEnded, hReturned⟩, rfl⟩ := h
      exact .finish hClosed hUnseen hEnded (by simpa using hReturned)

/-- The function makes every step. -/
theorem Step.step? {cfg : Settings} {s s' : State} {m : Move} (h : Step cfg s m s') :
    s.step? cfg m = some s' := by
  cases h with
  | acquire hSeeking hPending hFired hFree =>
    simp [State.step?, hSeeking, hPending, hFired, hFree]
  | spawn hHolding hPending => simp [State.step?, hHolding, hPending]
  | close hSeeking hDone =>
    cases hPending : s.pending <;>
      simp_all [State.step?, State.leftover, State.note]
  | fire hFired => simp [State.step?, hFired]
  | task hIndex hTask hEffect => simp [State.step?_task hIndex hTask, hEffect]
  | @see index rest hClosed hUnseen =>
    simpa [State.step?, hClosed, hUnseen] using State.seeEnd_eq s index rest
  | finish hClosed hUnseen hEnded hReturned =>
    simp [State.step?, hClosed, hUnseen, hEnded, hReturned]
    rfl

/-- **The relation and the function are the same machine.** -/
theorem State.step?_eq_some_iff {cfg : Settings} {s s' : State} {m : Move} :
    s.step? cfg m = some s' ↔ Step cfg s m s' :=
  ⟨Step.of_step?, Step.step?⟩

end Collector

end SqlMetrics
