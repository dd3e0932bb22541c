import SqlMetrics.Proofs.Collector.Progress
import SqlMetrics.Proofs.Collector.Completion

/-!
# The account of a run

A run reports each failure of a query once, either as its result or as a note, warns when queries
are left over, and notes each export that reached its service.

- **Warning**: `Warned` places the warning before all failures that are noted.
- **Exports**: `Exported` relates what is noted of exports to the tasks that ended with success.
- **Return**: `Returned` fixes what is known when a run has returned.
- **Account**: `errors_accounted` puts them together.
-/

namespace SqlMetrics.Collector

/-- The counts of a warning about queries that were never started. -/
def warning? : Event → Option (Nat × Nat)
  | .notStarted started total => some (started, total)
  | _ => none

/-- The index, the service and the number of points of an export that reached its service. -/
def exported? : Event → Option (Nat × String × Nat)
  | .exported index service count => some (index, service, count)
  | _ => none

/-- The service and the batch of an export that was begun. -/
def batch? : External → Option (String × List MetricPoint)
  | .exportBegun _ service points => some (service, points)
  | _ => none

namespace State

/-- The exports that the query with this index has begun. -/
def exportsOf (s : State) (index : Nat) : List (String × List MetricPoint) :=
  (s.externalsOf index).filterMap batch?

/-- Whether the task with this index is over without an error. -/
def succeeded (s : State) (index : Nat) : Bool :=
  s.hasEndedAt index && (s.endError? index).isNone

end State

/-! ## The warning -/

theorem Change.warnings_nil {cfg : Settings} {fired : Bool} {index : Nat} {t : Task}
    {e : TaskEffect} (h : Change cfg fired index t e) : e.notes.filterMap warning? = [] := by
  cases h <;> simp [warning?, Function.comp_def]

theorem State.warnings_laterFailure (s : State) (index : Nat) :
    (s.laterFailure index).filterMap warning? = [] := by
  unfold State.laterFailure
  split <;> simp [warning?, Function.comp_def]

/-- What holds of the warning in every state of a run:
1. before the admission is over there is none, and no failure is noted;
2. from then on it is there if queries are left over, before every failure that is noted. -/
structure Warned (s : State) : Prop where
  before_close : s.admission ≠ .closed →
    s.events.filterMap failure? = [] ∧ s.events.filterMap warning? = []
  after_close : s.admission = .closed → ∃ before after, s.events = before ++ s.leftover ++ after ∧
    before.filterMap failure? = [] ∧ before.filterMap warning? = [] ∧
      after.filterMap warning? = []

namespace Warned

variable {cfg : Settings} {s s' : State}

theorem init (queries : List Query) (fired : Bool) : Warned (State.init cfg queries fired) where
  before_close := fun _ => ⟨rfl, rfl⟩
  after_close := nofun

/-- Notes that hold no warning, and no failure before the admission is over, change nothing. -/
theorem append (h : Warned s) {notes : List Event} (hAdmission : s'.admission = s.admission)
    (hLeftover : s'.leftover = s.leftover) (hEvents : s'.events = s.events ++ notes)
    (hWarnings : notes.filterMap warning? = [])
    (hFailures : s.admission ≠ .closed → notes.filterMap failure? = []) : Warned s' where
  before_close := fun hOpen => by
    rw [hAdmission] at hOpen
    obtain ⟨hNoFailure, hNoWarning⟩ := h.before_close hOpen
    simp [hEvents, hNoFailure, hNoWarning, hWarnings, hFailures hOpen]
  after_close := fun hClosed => by
    obtain ⟨before, after, hOld, hFailure, hWarning, hRest⟩ := h.after_close (hAdmission ▸ hClosed)
    refine ⟨before, after ++ notes, ?_, hFailure, hWarning, ?_⟩
    · rw [hEvents, hOld, hLeftover, List.append_assoc _ after]
    · rw [List.filterMap_append, hRest, hWarnings]
      rfl

theorem step {m : Move} (h : Warned s) (hStep : Step cfg s m s') : Warned s' := by
  cases hStep with
  | acquire hSeeking | spawn hHolding =>
    have hOpen : s.admission ≠ .closed := by simp [*]
    exact ⟨fun _ => h.before_close hOpen, nofun⟩
  | close hSeeking hDone =>
    obtain ⟨hFailure, hWarning⟩ := h.before_close (by simp [hSeeking])
    exact ⟨fun hOpen => absurd rfl hOpen,
      fun _ => ⟨s.events, [], (List.append_nil _).symm, hFailure, hWarning, rfl⟩⟩
  | fire | finish => exact ⟨h.before_close, h.after_close⟩
  | @task _ index t e hIndex hTask hEffect =>
    have hChange := Change.of_effect? hIndex hEffect
    refine h.append rfl ?_ rfl hChange.warnings_nil fun _ => hChange.failures_nil
    simp [State.leftover]
  | @see index rest hClosed hUnseen =>
    -- Only here a failure is noted, and the admission is over by then.
    exact h.append rfl rfl rfl (s.warnings_laterFailure index) fun hOpen => absurd hClosed hOpen

theorem of_run? {queries : List Query} {fired : Bool} {moves : List Move}
    (hRun : (State.init cfg queries fired).run? cfg moves = some s) : Warned s :=
  State.run?_induction (P := Warned) (fun _ _ _ => step) hRun (init queries fired)

end Warned

/-! ## Exports -/

/-- Whether a task of this index can have come to its phase with these exports begun. -/
def Task.Begun (index : Nat) (service : String) (t : Task)
    (exports : List (String × List MetricPoint)) : Prop :=
  match t.phase with
  | .spawned | .executing _ => exports = []
  | .exporting points => exports = [(service, points)]
  | .ended none => ∃ points, exports = [(service, points)]
  | .ended (some e) => e.Concerns index service

namespace Change

variable {cfg : Settings} {fired : Bool} {index : Nat} {t : Task} {e : TaskEffect}

/-- A task that can still make its call of the data source has begun no export. -/
theorem begun_nil {service : String} {exports : List (String × List MetricPoint)}
    (h : t.Begun index service exports) (hFar : 3 < t.distance) : exports = [] := by
  obtain ⟨q, phase⟩ := t
  cases phase with
  | spawned | executing x => exact h
  | exporting points => simp [Task.distance] at hFar
  | ended error => simp [Task.distance] at hFar

theorem begun (h : Change cfg fired index t e) {exports : List (String × List MetricPoint)}
    (hBegun : t.Begun index (t.query.serviceOr cfg.defaultService) exports) :
    Task.Begun index (t.query.serviceOr cfg.defaultService) ⟨t.query, e.phase⟩
      (exports ++ e.externals.filterMap batch?) := by
  cases h with
  | command hFired hCloser =>
    -- A task that comes to a command or to its call is still too far from its end to have exported.
    rw [begun_nil hBegun (by omega)]
    rfl
  | call hFired hCloser =>
    rw [begun_nil hBegun hCloser]
    rfl
  | exporting hFired hPhase =>
    rw [Task.Begun, hPhase] at hBegun
    simp [hBegun, Task.Begun, batch?]
  | interrupted => simpa using hBegun
  | @delivered points fires hFired hPhase =>
    rw [Task.Begun, hPhase] at hBegun
    exact ⟨points, by simp [hBegun, batch?]⟩
  | failed notes hError => exact hError

end Change

namespace State

variable {cfg : Settings} {s : State} {m : Move} {index : Nat} {t : Task} {e : TaskEffect}

theorem exportsOf_apply (hIndex : m.index? = some index)
    (hEffect : t.effect? cfg s.fired m = some e) (i : Nat) :
    (s.apply index t e).exportsOf i =
      s.exportsOf i ++ if i = index then e.externals.filterMap batch? else [] := by
  rw [exportsOf, externalsOf_apply hIndex hEffect, List.filterMap_append]
  split <;> rfl

theorem succeeded_apply_self (hTask : s.tasks[index]? = some t) :
    (s.apply index t e).succeeded index = true ↔ e.phase = .ended none := by
  obtain ⟨hlt, -⟩ := List.getElem?_eq_some_iff.mp hTask
  rw [succeeded, hasEndedAt_apply hTask, if_pos rfl]
  cases hPhase : e.phase with
  | ended error => cases error <;> simp [TaskEffect.ends, hPhase, Phase.isEnded, endError?, hlt]
  | spawned | executing | exporting => simp [TaskEffect.ends, hPhase, Phase.isEnded]

/-- Whether a task that is over ended with success does not change. -/
theorem succeeded_step {s' : State} (hStep : Step cfg s m s') {i : Nat}
    (hEnded : s.hasEndedAt i = true) (hEnded' : s'.hasEndedAt i = true) :
    s'.succeeded i = s.succeeded i := by
  rw [succeeded, succeeded, hEnded, hEnded', endError?_step hStep hEnded]

theorem exported_leftover (s : State) : s.leftover.filterMap exported? = [] := by
  unfold leftover
  split <;> rfl

theorem exported_laterFailure (s : State) (index : Nat) :
    (s.laterFailure index).filterMap exported? = [] := by
  unfold laterFailure
  split <;> simp [exported?, Function.comp_def]

/-- The index, the service and the number of points of each export that the tasks with these indices
have begun. -/
def exportCounts (s : State) (indices : List Nat) : List (Nat × String × Nat) :=
  indices.flatMap fun i => (s.exportsOf i).map fun batch => (i, batch.1, batch.2.length)

theorem exportCounts_congr {s' : State} {indices : List Nat}
    (h : ∀ i ∈ indices, s'.exportsOf i = s.exportsOf i) :
    s'.exportCounts indices = s.exportCounts indices := by
  induction indices with
  | nil => rfl
  | cons i rest ih =>
    obtain ⟨hFirst, hRest⟩ := List.forall_mem_cons.mp h
    have hTail := ih hRest
    simp only [exportCounts, List.flatMap_cons, hFirst] at hTail ⊢
    rw [hTail]

end State

/-- What holds of the exports when the tasks `ended` are over:
1. a task has begun no export before it exports, and one batch for its service from then on;
2. only admitted queries have begun one;
3. the exports that are noted are those of the tasks that ended with success. -/
structure Exported (cfg : Settings) (s : State) (ended : List Nat) : Prop where
  begun : ∀ (i : Nat) (t : Task), s.tasks[i]? = some t →
    t.Begun i (t.query.serviceOr cfg.defaultService) (s.exportsOf i)
  fresh : ∀ i, s.tasks.length ≤ i → s.exportsOf i = []
  noted : s.events.filterMap exported? = s.exportCounts (ended.filter s.succeeded)

namespace Exported

variable {cfg : Settings} {s s' : State} {ended : List Nat}

theorem init (queries : List Query) (fired : Bool) :
    Exported cfg (State.init cfg queries fired) [] where
  begun := fun _ _ hTask => by simp [State.init] at hTask
  fresh := fun _ _ => rfl
  noted := rfl

/-- What a move notes of an export is the export of its task, if the move ends it with success. -/
theorem noted_task {m : Move} {index : Nat} {t : Task} {e : TaskEffect} (h : Exported cfg s ended)
    (hIndex : m.index? = some index) (hTask : s.tasks[index]? = some t)
    (hEffect : t.effect? cfg s.fired m = some e) :
    e.notes.filterMap exported? = (s.apply index t e).exportCounts
      ((if e.ends then [index] else []).filter (s.apply index t e).succeeded) := by
  have hExports := State.exportsOf_apply hIndex hEffect index
  have hSucceeded := State.succeeded_apply_self (e := e) hTask
  have hBegun := h.begun index t hTask
  cases Change.of_effect? hIndex hEffect with
  | command | call | exporting =>
    simp [TaskEffect.ends, Phase.isEnded, State.exportCounts, exported?, Function.comp_def]
  | interrupted =>
    have hUnended : t.phase.isEnded = false :=
      (Task.hasEnded_eq t).symm.trans (Task.hasEnded_of_effect? hEffect)
    simp [TaskEffect.ends, hUnended, State.exportCounts]
  | delivered hFired hPhase =>
    -- What is noted is the batch that the task has begun to export.
    rw [Task.Begun, hPhase] at hBegun
    simp [TaskEffect.ends, Phase.isEnded, hSucceeded, State.exportCounts, hExports, hBegun,
      batch?, exported?]
  | failed notes hError =>
    have hFailed : (s.apply index t ⟨notes.map .skipped, [], _, .ended (some _)⟩).succeeded index =
        false := Bool.eq_false_iff.mpr fun hTrue => by cases hSucceeded.mp hTrue
    simp [TaskEffect.ends, Phase.isEnded, hFailed, State.exportCounts, exported?,
      Function.comp_def]

/-- A move that is not about a task, begins no export and notes none changes nothing. -/
theorem keep {m : Move} (h : Exported cfg s ended) (hEnded : ∀ i ∈ ended, s.hasEndedAt i = true)
    (hStep : Step cfg s m s') (hIndex : m.index? = none)
    (hTasks : s'.tasks = s.tasks ∨ ∃ q, s'.tasks = s.tasks ++ [⟨q, .spawned⟩])
    (hExternals : s'.externals = s.externals)
    (hEvents : s'.events.filterMap exported? = s.events.filterMap exported?) :
    Exported cfg s' ended := by
  have hExports (i : Nat) : s'.exportsOf i = s.exportsOf i := by
    simp only [State.exportsOf, State.externalsOf, hExternals]
  have hSucceeded (i : Nat) (hMem : i ∈ ended) : s'.succeeded i = s.succeeded i :=
    State.succeeded_step hStep (hEnded i hMem)
      ((State.hasEndedAt_step hStep hIndex i).trans (hEnded i hMem))
  refine ⟨fun i t hTask => ?_, fun i hBeyond => ?_, ?_⟩
  · rw [hExports]
    rcases hTasks with hSame | ⟨q, hMore⟩
    · exact h.begun i t (hSame ▸ hTask)
    · rcases State.getElem?_append_spawned (hMore ▸ hTask) with ⟨rfl, rfl⟩ | hOld
      · exact h.fresh _ (Nat.le_refl _)
      · exact h.begun i t hOld
  · rw [hExports]
    refine h.fresh i ?_
    rcases hTasks with hSame | ⟨q, hMore⟩
    · rwa [hSame] at hBeyond
    · rw [hMore, List.length_append] at hBeyond
      omega
  · rw [hEvents, h.noted, List.filter_congr hSucceeded]
    exact (State.exportCounts_congr fun i _ => hExports i).symm

/-- A move of a task changes its own exports only, and what it notes is one that succeeded. -/
theorem task {m : Move} {index : Nat} {t : Task} {e : TaskEffect} (h : Exported cfg s ended)
    (hEnded : ∀ i ∈ ended, s.hasEndedAt i = true) (hIndex : m.index? = some index)
    (hTask : s.tasks[index]? = some t) (hEffect : t.effect? cfg s.fired m = some e) :
    Exported cfg (s.apply index t e) (ended ++ if e.ends then [index] else []) := by
  have hStep : Step cfg s m (s.apply index t e) := .task hIndex hTask hEffect
  have hExports := State.exportsOf_apply hIndex hEffect
  -- The tasks that are over make no moves.
  have hOther (i : Nat) (hMem : i ∈ ended) : i ≠ index := by
    rintro rfl
    have hBefore := hEnded i hMem
    rw [State.hasEndedAt_of_unended hTask (Task.hasEnded_of_effect? hEffect)] at hBefore
    cases hBefore
  refine ⟨fun i u hTask' => ?_, fun i hBeyond => ?_, ?_⟩
  · refine State.forall_task_apply
      (P := fun i u externals =>
        u.Begun i (u.query.serviceOr cfg.defaultService) (externals.filterMap batch?))
      hIndex hTask hEffect h.begun ?_ i u hTask'
    rw [List.filterMap_append]
    exact (Change.of_effect? hIndex hEffect).begun (h.begun index t hTask)
  · rw [State.exportsOf, State.externalsOf_apply_of_le hIndex hTask hEffect hBeyond]
    rw [State.apply_tasks, List.length_set] at hBeyond
    exact h.fresh i hBeyond
  · have hSucceeded (i : Nat) (hMem : i ∈ ended) :
        (s.apply index t e).succeeded i = s.succeeded i := by
      refine State.succeeded_step hStep (hEnded i hMem) ?_
      rw [State.hasEndedAt_apply hTask, if_neg (hOther i hMem)]
      exact hEnded i hMem
    have hKept : (s.apply index t e).exportCounts (ended.filter s.succeeded) =
        s.exportCounts (ended.filter s.succeeded) := by
      refine State.exportCounts_congr fun i hMem => ?_
      rw [hExports, if_neg (hOther i (List.mem_filter.mp hMem).1), List.append_nil]
    rw [State.apply_events, List.filterMap_append, List.filter_append,
      List.filter_congr hSucceeded, h.noted, h.noted_task hIndex hTask hEffect, ← hKept]
    exact List.flatMap_append.symm

theorem step {m : Move} (h : Exported cfg s ended) (hEnded : ∀ i ∈ ended, s.hasEndedAt i = true)
    (hStep : Step cfg s m s') : Exported cfg s' (ended ++ s.endedBetween s') := by
  have hKeep := h.keep hEnded hStep
  have hNone := fun hIndex => State.endedBetween_eq_nil (State.hasEndedAt_step hStep hIndex)
  cases hStep with
  | task hIndex hTask hEffect =>
    rw [State.endedBetween_task hTask (Task.hasEnded_of_effect? hEffect)]
    exact h.task hEnded hIndex hTask hEffect
  | acquire | fire | finish =>
    rw [hNone rfl, List.append_nil]
    exact hKeep rfl (.inl rfl) rfl rfl
  | spawn =>
    rw [hNone rfl, List.append_nil]
    exact hKeep rfl (.inr ⟨_, rfl⟩) rfl rfl
  | close =>
    rw [hNone rfl, List.append_nil]
    refine hKeep rfl (.inl rfl) rfl ?_
    rw [List.filterMap_append, State.exported_leftover, List.append_nil]
  | see =>
    rw [hNone rfl, List.append_nil]
    refine hKeep rfl (.inl rfl) rfl ?_
    rw [List.filterMap_append, State.exported_laterFailure, List.append_nil]

end Exported

/-! ## Return -/

/-- What is known when a run has returned: the admission is over, every task is over and has been
looked at, and the result is the verdict. -/
def Returned (s : State) : Prop :=
  ∀ r, s.returned = some r → s.admission = .closed ∧ s.unseen = [] ∧
    s.tasks.all Task.hasEnded = true ∧ r = s.verdict

namespace Returned

variable {cfg : Settings} {s s' : State}

theorem step {m : Move} (h : Returned s) (hStep : Step cfg s m s') : Returned s' := by
  intro r hReturned
  cases hStep with
  | acquire hSeeking => simp [(h r hReturned).1] at hSeeking
  | spawn hHolding => simp [(h r hReturned).1] at hHolding
  | close hSeeking => simp [(h r hReturned).1] at hSeeking
  | fire hFired => exact h r hReturned
  | @task _ index t e hIndex hTask hEffect =>
    -- With all tasks over, none can make a move.
    have hEnded := List.all_eq_true.mp (h r hReturned).2.2.1 t (List.mem_of_getElem? hTask)
    rw [Task.hasEnded_of_effect? hEffect] at hEnded
    cases hEnded
  | see hClosed hUnseen => simp [(h r hReturned).2.1] at hUnseen
  | finish hClosed hUnseen hEnded hNone =>
    cases hReturned
    exact ⟨hClosed, hUnseen, hEnded, rfl⟩

theorem of_run? {queries : List Query} {fired : Bool} {moves : List Move}
    (hRun : (State.init cfg queries fired).run? cfg moves = some s) : Returned s :=
  State.run?_induction (P := Returned) (fun _ _ _ => step) hRun nofun

end Returned

/-! ## Account -/

/-- The query of a task stands at its index. -/
theorem Admitting.getElem?_queries {cfg : Settings} {queries : List Query} {s : State}
    (h : Admitting cfg queries s) {i : Nat} {t : Task} (hTask : s.tasks[i]? = some t) :
    queries[i]? = some t.query := by
  have hAdmitted : s.admitted[i]? = some t.query := State.getElem?_admitted hTask
  obtain ⟨hlt, -⟩ := List.getElem?_eq_some_iff.mp hAdmitted
  rw [← h.queries, List.getElem?_append_left hlt, hAdmitted]

/-- A task has the query of its index. -/
theorem Admitting.query_eq {cfg : Settings} {queries : List Query} {s : State}
    (h : Admitting cfg queries s) {i : Nat} {t : Task} {q : Query} (hTask : s.tasks[i]? = some t)
    (hQuery : queries[i]? = some q) : t.query = q :=
  Option.some.inj ((h.getElem?_queries hTask).symm.trans hQuery)

/-- Queries are left over when fewer are admitted than there are. -/
theorem Admitting.pending_eq_nil_iff {cfg : Settings} {queries : List Query} {s : State}
    (h : Admitting cfg queries s) : s.pending = [] ↔ ¬ s.admitted.length < queries.length := by
  rw [← h.queries, List.length_append, ← List.length_eq_zero_iff]
  omega

/-- The exports of a run that has got so far, with the tasks that are over. -/
theorem Exported.of_run? {cfg : Settings} {queries : List Query} {fired : Bool}
    {moves : List Move} {s : State}
    (hRun : (State.init cfg queries fired).run? cfg moves = some s) :
    Exported cfg s ((State.init cfg queries fired).completions cfg moves) := by
  -- Both at once: that the listed tasks are over comes from the queue.
  have hStart : (∃ seen, Completed (State.init cfg queries fired) seen []) ∧
      Exported cfg (State.init cfg queries fired) [] :=
    ⟨⟨[], Completed.init queries fired⟩, init queries fired⟩
  refine (State.completions_induction
    (P := fun s ended => (∃ seen, Completed s seen ended) ∧ Exported cfg s ended) ?_ hRun hStart).2
  rintro s₁ m s₂ ended ⟨⟨seen, hCompleted⟩, hExported⟩ hStep
  exact ⟨hCompleted.step hStep,
    hExported.step (fun i hMem => (hCompleted.mem_iff i).mp hMem) hStep⟩

/-- A task that is over has begun the exports that go with its end. -/
theorem Exported.begun_ended {cfg : Settings} {queries : List Query} {s : State}
    {ended : List Nat} (h : Exported cfg s ended) (hAdmitting : Admitting cfg queries s) {i : Nat}
    {q : Query} (hQuery : queries[i]? = some q) (hEnded : s.hasEndedAt i = true) :
    Task.Begun i (q.serviceOr cfg.defaultService) ⟨q, .ended (s.endError? i)⟩ (s.exportsOf i) := by
  cases hTask : s.tasks[i]? with
  | none => simp [State.hasEndedAt, hTask] at hEnded
  | some t =>
    have hBegun := h.begun i t hTask
    rw [hAdmitting.query_eq hTask hQuery] at hBegun
    obtain ⟨q', phase⟩ := t
    cases phase with
    | ended error =>
      have hError : s.endError? i = error := by simp [State.endError?, hTask]
      rw [hError]
      exact hBegun
    | spawned | executing | exporting => simp [State.hasEndedAt, hTask, Task.hasEnded] at hEnded

/-- When a run has returned, it has looked at all tasks that have ended, and these are the tasks of
all admitted queries. -/
theorem Completed.of_returned {cfg : Settings} {queries : List Query} {fired : Bool}
    {moves : List Move} {s : State} {r : Except CollectorError Unit}
    (hRun : (State.init cfg queries fired).run? cfg moves = some s)
    (hReturned : s.returned = some r) :
    let ended := (State.init cfg queries fired).completions cfg moves
    Completed s ended ended ∧ ended.Perm (List.range s.admitted.length) := by
  intro ended
  obtain ⟨seen, hCompleted⟩ := Completed.of_run? hRun
  obtain ⟨hClosed, hUnseen, hEnded, hVerdict⟩ := Returned.of_run? hRun r hReturned
  have hSeen : ended = seen := by simpa [hUnseen] using hCompleted.queue
  refine ⟨by rw [← hSeen] at hCompleted; exact hCompleted, ?_⟩
  -- Neither list holds an index twice, so it is enough that they hold the same ones.
  refine (List.perm_ext_iff_of_nodup hCompleted.nodup List.nodup_range).mpr fun i => ?_
  rw [hCompleted.mem_iff, List.mem_range, State.admitted, List.length_map]
  refine ⟨fun hAt => Nat.lt_of_not_le fun hge => ?_, fun hlt => ?_⟩
  · simp [State.hasEndedAt, List.getElem?_eq_none hge] at hAt
  · have hLast := List.all_eq_true.mp hEnded _ (List.getElem_mem hlt)
    simp [State.hasEndedAt, hlt, hLast]

/-- **Every failure is reported once, in the order of the failures.**  Every run can be completed.
When it has returned `r`, let `ended` be the tasks in the order of their ends, and `errors` the errors
of those that failed:
1. the ended tasks are those of the admitted queries, each once;
2. the result is the first error; without one it is that the run was cancelled if queries are left
   over, and success if none is;
3. a warning with the true counts is noted if queries are left over, and only then; all errors but
   the first are noted after it, in order;
4. an error names the index or the service of its own query;
5. queries are left over only if the token has fired;
6. the exports that are noted are those of the tasks that ended with success, in order, each with
   the one batch that its query has exported and with the service of the query. -/
theorem errors_accounted (cfg : Settings) (queries : List Query) (fired : Bool)
    (moves : List Move) (s : State)
    (hRun : (State.init cfg queries fired).run? cfg moves = some s) :
    (∃ more s', s.run? cfg more = some s' ∧ s'.returned.isSome = true) ∧
    ∀ r, s.returned = some r →
      let ended := (State.init cfg queries fired).completions cfg moves
      let errors := ended.filterMap s.endError?
      let started := s.admitted.length
      (ended.Perm (List.range started) ∧ s.admitted <+: queries) ∧
      (r = match errors with
        | e :: _ => .error e
        | [] => if started < queries.length then .error .cancelled else .ok ()) ∧
      (∃ before after,
        s.events = before ++
            (if started < queries.length then [.notStarted started queries.length] else []) ++
              after ∧
          before.filterMap failure? = [] ∧ before.filterMap warning? = [] ∧
          after.filterMap warning? = [] ∧ after.filterMap failure? = errors.tail) ∧
      (∀ i q e, queries[i]? = some q → s.endError? i = some e →
        e.Concerns i (q.serviceOr cfg.defaultService)) ∧
      (started < queries.length → s.fired = true) ∧
      (s.events.filterMap exported? = s.exportCounts (ended.filter s.succeeded) ∧
        ∀ i q, queries[i]? = some q → i ∈ ended.filter s.succeeded →
          ∃ points, s.exportsOf i = [(q.serviceOr cfg.defaultService, points)]) := by
  refine ⟨exists_completion hRun, fun r hReturned => ?_⟩
  intro ended errors started
  have hAdmitting := Admitting.of_run? hRun
  have hExported := Exported.of_run? hRun
  obtain ⟨hClosed, hUnseen, hEnded, hVerdict⟩ := Returned.of_run? hRun r hReturned
  obtain ⟨hCompleted, hAll⟩ := Completed.of_returned hRun hReturned
  have hPending := hAdmitting.pending_eq_nil_iff
  have hLength : s.tasks.length = started := (List.length_map _).symm
  refine ⟨⟨hAll, ⟨_, hAdmitting.queries⟩⟩, ?result, ?notes, ?attribution, ?fired, ?exports⟩
  case result =>
    have hFirst : s.firstError = errors.head? := hCompleted.first
    rw [hVerdict, State.verdict, hFirst]
    cases errors with
    | cons e rest => rfl
    | nil => simp only [hPending, ite_not, started]; rfl
  case notes =>
    obtain ⟨before, after, hEvents, hBefore, hWarnings, hAfter⟩ :=
      (Warned.of_run? hRun).after_close hClosed
    have hTotal : s.tasks.length + s.pending.length = queries.length := by
      rw [hLength, ← hAdmitting.queries, List.length_append]
    refine ⟨before, after, ?_, hBefore, hWarnings, hAfter, ?_⟩
    · rw [hEvents, State.leftover, hTotal, hLength]
      simp only [hPending, ite_not, started]
    · -- No failure stands before the warning, so all that are noted stand behind it.
      have hLater := hCompleted.later
      rw [hEvents, List.filterMap_append, List.filterMap_append, hBefore,
        State.failures_leftover] at hLater
      exact hLater
  case attribution =>
    intro i q e hQuery hError
    have hBegun := hExported.begun_ended hAdmitting hQuery (State.hasEndedAt_of_endError? hError)
    rw [hError] at hBegun
    exact hBegun
  case fired =>
    intro hLeft
    have hNotNil : s.pending ≠ [] := fun hNil => hPending.mp hNil hLeft
    exact (hAdmitting.closed hClosed).resolve_left hNotNil
  case exports =>
    refine ⟨hExported.noted, fun i q hQuery hMem => ?_⟩
    obtain ⟨hAt, hNoError⟩ := Bool.and_eq_true_iff.mp (List.mem_filter.mp hMem).2
    have hBegun := hExported.begun_ended hAdmitting hQuery hAt
    rw [Option.isNone_iff_eq_none.mp hNoError] at hBegun
    exact hBegun

/-- Of two queries at work, the second crashes and then the first is exported: the run returns the
crash, and notes the export. -/
theorem errors_accounted_crash :
    ∃ s, (State.init ⟨2, "web"⟩ [{}, {}] false).run? ⟨2, "web"⟩
        [.acquire, .spawn, .acquire, .spawn, .close, .start 0 0, .start 1 0,
          .sourceReplies 1 (.crashed "overflow" false),
          .sourceReplies 0 (.answered (.ok []) false),
          .exportReplies 0 (.answered (.ok ()) false), .see, .see, .finish] = some s ∧
      s.returned = some (.error (.crashed "overflow")) ∧
      s.events.filterMap exported? = s.exportCounts [0] ∧
      ∃ points, s.exportsOf 0 = [("web", points)] := by
  obtain ⟨s, hRun, hReturned, hSucceeded⟩ : ∃ s,
      (State.init ⟨2, "web"⟩ [{}, {}] false).run? ⟨2, "web"⟩
        [.acquire, .spawn, .acquire, .spawn, .close, .start 0 0, .start 1 0,
          .sourceReplies 1 (.crashed "overflow" false),
          .sourceReplies 0 (.answered (.ok []) false),
          .exportReplies 0 (.answered (.ok ()) false), .see, .see, .finish] = some s ∧
      s.returned = some (.error (.crashed "overflow")) ∧ [1, 0].filter s.succeeded = [0] :=
    ⟨_, rfl, rfl, rfl⟩
  obtain ⟨-, hAccount⟩ := errors_accounted _ _ _ _ s hRun
  obtain ⟨-, -, -, -, -, hNoted, hBatch⟩ := hAccount _ hReturned
  change s.events.filterMap exported? = s.exportCounts ([1, 0].filter s.succeeded) at hNoted
  have hMem : 0 ∈ [1, 0].filter s.succeeded := by simp [hSucceeded]
  exact ⟨s, hRun, hReturned, hSucceeded ▸ hNoted, hBatch 0 {} rfl hMem⟩

end SqlMetrics.Collector
