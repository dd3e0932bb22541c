import SqlMetrics.Proofs.Collector.Progress

/-!
# The schedule of virtual time

`Timeline.next?` picks one step at a time.  This file says once what such a step can be, and derives
from it that the schedule makes moves of the machine only and forgets no task.

- **Ticks**: `Timeline.Tick` has one constructor per kind of step, and `Tick.of_next?` states that
  there are no others.
- **Invariant**: `Scheduled` holds of every timeline that a run goes through.
-/

namespace SqlMetrics.Collector

namespace Timeline

variable {cfg : Settings} {w : World} {t : Timeline}

/-! ## Moves of the run -/

/-- The moves that the run makes in its own turn. -/
def runMoves : List Move :=
  [.spawn, .close, .acquire, .see, .finish]

theorem step_of_runMove? {s s' : State} {m : Move} (h : runMove? cfg s = some (m, s')) :
    m ∈ runMoves ∧ Step cfg s m s' := by
  obtain ⟨m', hMem, hMap⟩ := List.exists_of_findSome?_eq_some h
  obtain ⟨s₁, hStep, hPair⟩ := Option.map_eq_some_iff.mp hMap
  cases hPair
  exact ⟨hMem, State.step?_eq_some_iff.mp hStep⟩

theorem not_step_of_runMove? {s s' : State} {m : Move} (h : runMove? cfg s = none)
    (hMem : m ∈ runMoves) : ¬ Step cfg s m s' := by
  intro hStep
  have hNone := List.findSome?_eq_none_iff.mp h m hMem
  rw [hStep.step?] at hNone
  cases hNone

/-- A move of the run is not about a task and does not fire the token. -/
theorem index?_of_mem_runMoves {m : Move} (h : m ∈ runMoves) : m.index? = none ∧ m ≠ .fire := by
  simp only [runMoves, List.mem_cons, List.not_mem_nil, or_false] at h
  rcases h with rfl | rfl | rfl | rfl | rfl <;> exact ⟨rfl, nofun⟩

theorem fired_of_mem_runMoves {s s' : State} {m : Move} (h : m ∈ runMoves)
    (hStep : Step cfg s m s') : s'.fired = s.fired := by
  obtain ⟨hIndex, hFire⟩ := index?_of_mem_runMoves h
  cases hStep with
  | fire => exact absurd rfl hFire
  | task hSome => simp [hSome] at hIndex
  | _ => rfl

/-! ## Ticks -/

/-- Whether the task goes on at once after a move to this state. -/
def goesOn (s : State) (index : Nat) : Bool :=
  !s.fired && (s.tasks[index]?).any isWaiting

/-- What one step of a timeline can be. -/
inductive Tick (cfg : Settings) (w : World) (t : Timeline) : Timeline → Prop where
  /-- The run hands a permit to a new task, which can then go on. -/
  | spawn {s' : State} (hTurn : t.turn = .run) (hStep : Step cfg t.state .spawn s') :
      Tick cfg w t { t.after s' with ready := t.ready ++ [⟨t.state.tasks.length, false⟩] }
  /-- The run makes another move. -/
  | own {m : Move} {s' : State} (hTurn : t.turn = .run) (hMem : m ∈ runMoves) (hMove : m ≠ .spawn)
      (hStep : Step cfg t.state m s') : Tick cfg w t (t.after s')
  /-- The run can make no move and leaves the turn to the tasks. -/
  | yield (hTurn : t.turn = .run) (hStuck : runMove? cfg t.state = none) :
      Tick cfg w t { t with turn := .tasks }
  /-- A task begins to wait for a call that takes time. -/
  | wait {r : Runnable} {rest : List Runnable} {task : Task} {delay : Nat}
      (hTurn : t.turn = .tasks) (hReady : t.ready = r :: rest) (hReplied : r.replied = false)
      (hUnfired : t.state.fired = false) (hTask : t.state.tasks[r.index]? = some task)
      (hWaits : isWaiting task = true) :
      Tick cfg w t { t with ready := rest, waiting := t.waiting ++ [⟨r.index, t.now + delay⟩] }
  /-- A task that is over is not looked at again. -/
  | drop {r : Runnable} {rest : List Runnable} (hTurn : t.turn = .tasks)
      (hReady : t.ready = r :: rest)
      (hOver : ∀ task, t.state.tasks[r.index]? = some task → task.hasEnded = true) :
      Tick cfg w t { t with ready := rest }
  /-- A task makes a move, or its command fires the token. -/
  | move {r : Runnable} {rest : List Runnable} {m : Move} {s' : State} (hTurn : t.turn = .tasks)
      (hReady : t.ready = r :: rest) (hAbout : m.index? = some r.index ∨ m = .fire)
      (hStep : Step cfg t.state m s')
      (hStarted : ∀ task, s'.tasks[r.index]? = some task → task.phase ≠ .spawned) :
      Tick cfg w t
        ({ t with ready := if goesOn s' r.index then ⟨r.index, false⟩ :: rest else rest }.after s')
  /-- The tasks can do nothing more and leave the turn to the run. -/
  | resume (hTurn : t.turn = .tasks) (hReady : t.ready = [])
      (hCan : (runMove? cfg t.state).isSome = true) : Tick cfg w t { t with turn := .run }
  /-- Everything waits, and time moves on. -/
  | pass {time : Nat} (hTurn : t.turn = .tasks) (hReady : t.ready = [])
      (hStuck : runMove? cfg t.state = none) (hTime : nextTime? w t = some time) :
      Tick cfg w t (advance cfg w t time)

/-- A call that takes time is one that a waiting task has made. -/
theorem isWaiting_of_callDelay {s : State} {index : Nat} (h : 0 < callDelay cfg w s index) :
    ∃ task, s.tasks[index]? = some task ∧ isWaiting task = true := by
  unfold callDelay at h
  split at h
  · next hTask => exact ⟨_, hTask, rfl⟩
  · next hTask => exact ⟨_, hTask, rfl⟩
  · cases h

/-- The move of a task that can go on. -/
def moveOf (cfg : Settings) (w : World) (s : State) (now : Nat) (r : Runnable) : Option Move :=
  (exportMove cfg w s r).or (taskMove w s now r)

theorem exists_step_of_effect? {s : State} {time : Nat} {m : Move} {r : Runnable} {task : Task}
    (hMove : moveOf cfg w s time r = some m) (hIndex : m.index? = some r.index)
    (hTask : s.tasks[r.index]? = some task)
    (hEffect : (task.effect? cfg s.fired m).isSome = true) :
    ∃ m s', moveOf cfg w s time r = some m ∧ (m.index? = some r.index ∨ m = .fire) ∧
      Step cfg s m s' ∧ ∀ task, s'.tasks[r.index]? = some task → task.phase ≠ .spawned := by
  obtain ⟨e, hSome⟩ := Option.isSome_iff_exists.mp hEffect
  refine ⟨m, _, hMove, .inl hIndex, .task hIndex hTask hSome, fun task' hTask' => ?_⟩
  rcases State.getElem?_apply hTask hTask' with ⟨-, rfl⟩ | ⟨hOther, -⟩
  · exact Task.phase_ne_spawned hIndex hSome
  · exact absurd rfl hOther

/-- A task that is not over and can go on has a move, about itself or firing the token. -/
theorem exists_step_of_runnable (cfg : Settings) (w : World) {s : State} (hStable : s.Stable)
    (time : Nat) {r : Runnable} {task : Task} (hTask : s.tasks[r.index]? = some task)
    (hUnended : task.hasEnded = false) :
    ∃ m s', moveOf cfg w s time r = some m ∧ (m.index? = some r.index ∨ m = .fire) ∧
      Step cfg s m s' ∧ ∀ task, s'.tasks[r.index]? = some task → task.phase ≠ .spawned := by
  have hPhase : task.phase.Stable := hStable task (List.mem_of_getElem? hTask)
  obtain ⟨q, phase⟩ := task
  cases phase with
  | ended error => cases hUnended
  | spawned =>
    have hMove : moveOf cfg w s time r = some (.start r.index (w.clock time)) := by
      simp [moveOf, exportMove, taskMove, hTask]
    exact exists_step_of_effect? hMove rfl hTask rfl
  | exporting points =>
    cases hFired : s.fired with
    | true =>
      have hMove : moveOf cfg w s time r = some (.wake r.index) := by
        simp [moveOf, exportMove, taskMove, hTask, hFired]
      exact exists_step_of_effect? hMove rfl hTask (by rw [hFired]; rfl)
    | false =>
      have hMove : moveOf cfg w s time r = some (.exportReplies r.index
          (w.exporter (q.serviceOr cfg.defaultService) points).value) := by
        simp [moveOf, exportMove, hTask, hFired]
      exact exists_step_of_effect? hMove rfl hTask (by rw [hFired]; rfl)
  | executing x =>
    cases hFired : s.fired with
    | true =>
      have hMove : moveOf cfg w s time r = some (.wake r.index) := by
        simp [moveOf, exportMove, taskMove, hTask, hFired]
      exact exists_step_of_effect? hMove rfl hTask (by rw [hFired]; rfl)
    | false =>
      cases x with
      | finished x => exact absurd rfl (hPhase x)
      | querying clock params =>
        have hMove : moveOf cfg w s time r = some (.sourceReplies r.index
            (w.source ⟨q.sql, params⟩).value) := by
          simp [moveOf, exportMove, taskMove, hTask, hFired]
        exact exists_step_of_effect? hMove rfl hTask (by rw [hFired]; rfl)
      | evaluating clock values command rest =>
        cases hShell : w.shell command with
        | none =>
          -- The command fires the token and does not come back: no task makes the move.
          have hMove : moveOf cfg w s time r = some .fire := by
            simp [moveOf, exportMove, taskMove, hTask, hFired, hShell]
          refine ⟨.fire, _, hMove, .inr rfl, .fire hFired, fun task' hTask' => ?_⟩
          obtain rfl := Option.some.inj (hTask.symm.trans hTask')
          exact nofun
        | some outcome =>
          have hMove : moveOf cfg w s time r = some (.commandEnds r.index outcome) := by
            simp [moveOf, exportMove, taskMove, hTask, hFired, hShell]
          exact exists_step_of_effect? hMove rfl hTask (by rw [hFired]; rfl)

/-- A task that is over has no move that is possible. -/
theorem step?_of_over {s : State} {time : Nat} {r : Runnable} {m : Move}
    (hOver : ∀ task, s.tasks[r.index]? = some task → task.hasEnded = true)
    (hMove : moveOf cfg w s time r = some m) : s.step? cfg m = none := by
  cases hTask : s.tasks[r.index]? with
  | none => simp [moveOf, exportMove, taskMove, hTask] at hMove
  | some task =>
    have hEnded := hOver task hTask
    obtain ⟨q, phase⟩ := task
    cases phase with
    | spawned | executing | exporting => cases hEnded
    | ended error =>
      cases hFired : s.fired with
      | true =>
        have hWake : m = .wake r.index := by
          simpa [moveOf, exportMove, taskMove, hTask, hFired, eq_comm] using hMove
        rw [hWake, State.step?_task rfl hTask, hFired]
        rfl
      | false => simp [moveOf, exportMove, taskMove, hTask, hFired] at hMove

/-- A runnable task begins to wait, is over, or makes a move. -/
theorem Tick.of_stepTask (hStable : t.state.Stable) {r : Runnable} {rest : List Runnable}
    (hTurn : t.turn = .tasks) (hReady : t.ready = r :: rest) :
    Tick cfg w t (stepTask cfg w t r rest) := by
  simp only [stepTask]
  by_cases hCall : (!r.replied && !t.state.fired &&
      decide (0 < callDelay cfg w t.state r.index)) = true
  · rw [if_pos hCall]
    simp only [Bool.and_eq_true, Bool.not_eq_true', decide_eq_true_eq] at hCall
    obtain ⟨⟨hReplied, hUnfired⟩, hDelay⟩ := hCall
    obtain ⟨task, hTask, hWaits⟩ := isWaiting_of_callDelay hDelay
    exact .wait hTurn hReady hReplied hUnfired hTask hWaits
  · rw [if_neg hCall]
    by_cases hOver : ∀ task, t.state.tasks[r.index]? = some task → task.hasEnded = true
    · -- What the schedule would do with it is not possible, and it leaves the queue.
      cases hMove : (exportMove cfg w t.state r).or (taskMove w t.state t.now r) with
      | none => exact .drop hTurn hReady hOver
      | some m =>
        simp only [step?_of_over hOver hMove]
        exact .drop hTurn hReady hOver
    · obtain ⟨task, hTask, hUnended⟩ : ∃ task, t.state.tasks[r.index]? = some task ∧
          task.hasEnded = false := by simpa using hOver
      obtain ⟨m, s', hMove, hAbout, hStep, hStarted⟩ :=
        exists_step_of_runnable cfg w hStable t.now hTask hUnended
      have hOr : (exportMove cfg w t.state r).or (taskMove w t.state t.now r) = some m := hMove
      simp only [hOr, hStep.step?]
      exact Tick.move hTurn hReady hAbout hStep hStarted

/-- Every step of a timeline is a tick. -/
theorem Tick.of_next? (hStable : t.state.Stable) {t' : Timeline} (h : next? cfg w t = some t') :
    Tick cfg w t t' := by
  unfold next? at h
  split at h
  · cases h
  · split at h
    · next hTurn =>
      split at h
      · next s' hMove =>
        cases h
        exact .spawn hTurn (step_of_runMove? hMove).2
      · next m s' hSpawn hMove =>
        cases h
        obtain ⟨hMem, hStep⟩ := step_of_runMove? hMove
        exact .own hTurn hMem hSpawn hStep
      · next hMove =>
        cases h
        exact .yield hTurn hMove
    · next hTurn =>
      split at h
      · next r rest hReady =>
        cases h
        exact .of_stepTask hStable hTurn hReady
      · next hReady =>
        split at h
        · next hCan =>
          cases h
          exact .resume hTurn hReady hCan
        · next hStuck =>
          obtain ⟨time, hTime, rfl⟩ := Option.map_eq_some_iff.mp h
          exact .pass hTurn hReady (by simpa using hStuck) hTime

/-! ## What a move does to the schedule -/

section After

variable {s' : State}

@[simp] theorem after_state : (t.after s').state = s' := by
  unfold after
  split <;> rfl

@[simp] theorem after_now : (t.after s').now = t.now := by
  unfold after
  split <;> rfl

@[simp] theorem after_turn : (t.after s').turn = t.turn := by
  unfold after
  split <;> rfl

/-- A move that does not fire the token leaves the schedule as it is. -/
theorem after_of_kept (h : s'.fired = t.state.fired) :
    (t.after s').ready = t.ready ∧ (t.after s').waiting = t.waiting := by
  unfold after
  rw [h, Bool.and_not_self]
  exact ⟨rfl, rfl⟩

/-- When the token fires, nothing waits any more, and every waiting task can go on. -/
theorem after_of_fired (hUnfired : t.state.fired = false) (hFired : s'.fired = true) :
    (t.after s').ready = t.ready ++ t.toWake s'.tasks ∧ (t.after s').waiting = [] := by
  unfold after
  rw [hUnfired, hFired]
  exact ⟨rfl, rfl⟩

/-- A move fires the token or leaves it as it is. -/
theorem fired_cases {m : Move} (hStep : Step cfg t.state m s') :
    s'.fired = t.state.fired ∨ (t.state.fired = false ∧ s'.fired = true) := by
  cases hOld : t.state.fired with
  | true => exact .inl (State.fired_step hStep hOld)
  | false =>
    cases hNew : s'.fired with
    | true => exact .inr ⟨rfl, rfl⟩
    | false => exact .inl rfl

/-- When time comes to the moment at which the token fires from outside, it fires. -/
theorem advance_of_fire {time : Nat} (hUnfired : t.state.fired = false)
    (hFire : w.fireAt = some time) :
    advance cfg w t time = { t with now := time }.after { t.state with fired := true } := by
  have hStep : t.state.step? cfg .fire = some { t.state with fired := true } :=
    (Step.fire hUnfired).step?
  have hGuard : (!t.state.fired && w.fireAt == some time) = true := by simp [hUnfired, hFire]
  -- No call is under way after the firing, so none is due.
  have hNone : ({ t with now := time }.after { t.state with fired := true }).waiting = [] :=
    (after_of_fired (t := { t with now := time }) hUnfired rfl).2
  have hDue : ∀ u : Timeline, u.waiting = [] →
      { u with
        ready := u.ready ++ (u.waiting.filter fun c => c.due ≤ time).map fun c => ⟨c.index, true⟩
        waiting := u.waiting.filter fun c => !(c.due ≤ time) } = u := by
    intro u hIdle
    obtain ⟨_, _, _, _, waiting, _, _, _⟩ := u
    obtain rfl : waiting = [] := hIdle
    simp
  simp only [advance, hGuard, if_true, hStep]
  exact hDue _ hNone

/-- At any other moment the calls that are due come to something. -/
theorem advance_of_quiet {time : Nat} (h : t.state.fired = true ∨ w.fireAt ≠ some time) :
    advance cfg w t time = { t with
      now := time
      ready := t.ready ++ (t.waiting.filter fun c => c.due ≤ time).map fun c => ⟨c.index, true⟩
      waiting := t.waiting.filter fun c => !(c.due ≤ time) } := by
  have hQuiet : (!t.state.fired && w.fireAt == some time) = false := by
    rcases h with hFired | hOther
    · simp [hFired]
    · simp [hOther]
  simp [advance, hQuiet]

/-- When the token has fired, every waiting task is among the runnable ones. -/
theorem mem_ready_of_fired (hUnfired : t.state.fired = false) (hFired : s'.fired = true) {i : Nat}
    {task : Task} (hTask : s'.tasks[i]? = some task) (hWaits : isWaiting task = true) :
    i ∈ (t.after s').ready.map Runnable.index := by
  rw [(after_of_fired hUnfired hFired).1, List.map_append, List.mem_append]
  by_cases hKnown : i ∈ t.ready.map Runnable.index
  · exact .inl hKnown
  · refine .inr (List.mem_map.mpr ⟨⟨i, false⟩, List.mem_map.mpr ⟨(task, i), ?_, rfl⟩, rfl⟩)
    refine List.mem_filter.mpr ⟨List.mem_zipIdx_iff_getElem?.mpr hTask, ?_⟩
    have hNone : t.ready.any (fun r => r.index == i) = false := by
      rw [List.any_eq_false]
      intro r hMem hSame
      exact hKnown (List.mem_map.mpr ⟨r, hMem, by simpa using hSame⟩)
    simp [hWaits, hNone]

end After

end Timeline

/-! ## The invariant of the schedule -/

/-- Whether the schedule will come back to the task with this index. -/
def Timeline.Tracks (t : Timeline) (i : Nat) (task : Task) : Prop :=
  i ∈ t.ready.map Runnable.index ∨
    (Timeline.isWaiting task = true ∧ i ∈ t.waiting.map Waiting.index)

/-- What holds of every timeline that a run of these queries goes through:
1. its state is one that the machine reaches;
2. the schedule will come back to every task that is not over;
3. once the token has fired, no call is under way;
4. the admission loop has no permit in its hand while the tasks have their turn, or once the token
   has fired;
5. time does not pass the moment at which the token fires from outside. -/
structure Scheduled (cfg : Settings) (w : World) (queries : List Query) (t : Timeline) : Prop where
  reached : ∃ moves, (State.init cfg queries (w.fireAt == some 0)).run? cfg moves = some t.state
  tracked : ∀ (i : Nat) (task : Task), t.state.tasks[i]? = some task → task.hasEnded = false →
    t.Tracks i task
  idle : t.state.fired = true → t.waiting = []
  handed : t.turn = .tasks ∨ t.state.fired = true → t.state.admission ≠ .holding
  punctual : ∀ time, w.fireAt = some time → t.now ≤ time

namespace Scheduled

open Timeline

variable {cfg : Settings} {w : World} {queries : List Query} {t t' : Timeline}

theorem init : Scheduled cfg w queries (Timeline.init cfg queries (w.fireAt == some 0)) where
  reached := ⟨[], rfl⟩
  tracked := fun _ _ hTask => by simp [Timeline.init, State.init] at hTask
  idle := fun _ => rfl
  handed := fun _ => nofun
  punctual := fun _ _ => Nat.zero_le _

theorem admitting (h : Scheduled cfg w queries t) : Admitting cfg queries t.state := by
  obtain ⟨moves, hRun⟩ := h.reached
  exact .of_run? hRun

theorem stable (h : Scheduled cfg w queries t) : t.state.Stable := by
  obtain ⟨moves, hRun⟩ := h.reached
  exact State.stable_of_run? hRun

theorem reached_step (h : Scheduled cfg w queries t) {m : Move} {s' : State}
    (hStep : Step cfg t.state m s') :
    ∃ moves, (State.init cfg queries (w.fireAt == some 0)).run? cfg moves = some s' := by
  obtain ⟨moves, hRun⟩ := h.reached
  exact ⟨moves ++ [m], State.run?_trans hRun (State.run?_singleton hStep)⟩

/-- A task that has started and is not over waits. -/
theorem isWaiting_of_started {task : Task} (hStarted : task.phase ≠ .spawned)
    (hUnended : task.hasEnded = false) : isWaiting task = true := by
  obtain ⟨q, phase⟩ := task
  cases phase with
  | spawned => exact absurd rfl hStarted
  | ended error => cases hUnended
  | executing | exporting => rfl

/-- A move about one task, and one that fires the token, leave the other tasks alone. -/
theorem tasks_of_about {s s' : State} {m : Move} {index : Nat} (hStep : Step cfg s m s')
    (hAbout : m.index? = some index ∨ m = .fire) :
    s'.admission = s.admission ∧ s'.pending = s.pending ∧ s'.tasks.length = s.tasks.length ∧
      ∀ i, i ≠ index → s'.tasks[i]? = s.tasks[i]? := by
  cases hStep with
  | acquire | spawn | close | see | finish => simp [Move.index?] at hAbout
  | fire => exact ⟨rfl, rfl, rfl, fun _ _ => rfl⟩
  | task hIndex hTask hEffect =>
    rcases hAbout with hSame | hFire
    · obtain rfl := Option.some.inj (hIndex.symm.trans hSame)
      refine ⟨rfl, rfl, by simp, fun i hOther => ?_⟩
      rw [State.apply_tasks, List.getElem?_set_ne fun hEq => hOther hEq.symm]
    · simp [hFire, Move.index?] at hIndex

/-- Once the token has fired, a move of a task ends it. -/
theorem hasEnded_of_about {s s' : State} {m : Move} {index : Nat} {task : Task}
    (hStep : Step cfg s m s') (hAbout : m.index? = some index ∨ m = .fire)
    (hFired : s.fired = true) (hTask : s'.tasks[index]? = some task) : task.hasEnded = true := by
  cases hStep with
  | acquire | spawn | close | see | finish => simp [Move.index?] at hAbout
  | fire hUnfired => simp [hFired] at hUnfired
  | @task _ i u e hIndex hOld hEffect =>
    rcases hAbout with hSame | hFire
    · obtain rfl := Option.some.inj (hIndex.symm.trans hSame)
      rw [hFired] at hEffect
      obtain rfl := Task.effect?_of_fired hIndex hEffect
      rcases State.getElem?_apply hOld hTask with ⟨-, rfl⟩ | ⟨hOther, -⟩
      · rfl
      · exact absurd rfl hOther
    · simp [hFire, Move.index?] at hIndex

theorem spawn (h : Scheduled cfg w queries t) {s' : State}
    (hStep : Step cfg t.state .spawn s') :
    Scheduled cfg w queries
      { t.after s' with ready := t.ready ++ [⟨t.state.tasks.length, false⟩] } := by
  have hReached := h.reached_step hStep
  obtain ⟨-, hWaiting⟩ := after_of_kept (fired_of_mem_runMoves (by simp [runMoves]) hStep)
  cases hStep with
  | task hIndex => cases hIndex
  | @spawn q rest hHolding hPending =>
    refine ⟨by simpa using hReached, fun i task hTask hUnended => ?_, ?_, ?_, ?_⟩
    · rw [after_state] at hTask
      rcases State.getElem?_append_spawned hTask with ⟨rfl, -⟩ | hOld
      · exact .inl (by simp)
      · refine (h.tracked i task hOld hUnended).imp (fun hMem => ?_) fun hWaits => ?_
        · simp only [List.map_append, List.mem_append]
          exact .inl hMem
        · rw [hWaiting]
          exact hWaits
    · intro hFired
      rw [hWaiting]
      exact h.idle (by simpa using hFired)
    · intro hTurnOrFired
      simp
    · simpa using h.punctual

/-- A move of the run leaves the tasks as they are, if it starts none. -/
theorem own (h : Scheduled cfg w queries t) {m : Move} {s' : State} (hTurn : t.turn = .run)
    (hMem : m ∈ runMoves) (hMove : m ≠ .spawn) (hStep : Step cfg t.state m s') :
    Scheduled cfg w queries (t.after s') := by
  have hReached := h.reached_step hStep
  have hFired := fired_of_mem_runMoves hMem hStep
  obtain ⟨hIndex, -⟩ := index?_of_mem_runMoves hMem
  obtain ⟨hReady, hWaiting⟩ := after_of_kept (t := t) hFired
  have hTasks : s'.tasks = t.state.tasks := by
    cases hStep with
    | spawn => exact absurd rfl hMove
    | task hSome => simp [hSome] at hIndex
    | _ => rfl
  refine ⟨by simpa using hReached, fun i task hTask hUnended => ?_, fun hNow => ?_, ?_, ?_⟩
  · rw [Tracks, hReady, hWaiting]
    exact h.tracked i task (by simpa [hTasks] using hTask) hUnended
  · rw [hWaiting]
    exact h.idle (by simpa [hFired] using hNow)
  · rw [after_turn, after_state, hFired]
    intro hTurnOrFired
    -- The run has its turn, so the token must have fired, and then no permit is taken.
    have hToken : t.state.fired = true := hTurnOrFired.resolve_left (by simp [hTurn])
    have hOld := h.handed (.inr hToken)
    cases hStep with
    | acquire hSeeking hPending hUnfired => simp [hToken] at hUnfired
    | spawn => exact absurd rfl hMove
    | close => exact nofun
    | fire hUnfired => simp [hToken] at hUnfired
    | task hSome => simp [hSome] at hIndex
    | see | finish => exact hOld
  · simpa using h.punctual

/-- A loop that has a permit in its hand can hand it over. -/
theorem not_holding_of_stuck (h : Scheduled cfg w queries t)
    (hStuck : runMove? cfg t.state = none) : t.state.admission ≠ .holding := by
  intro hHolding
  obtain ⟨q, rest, hPending⟩ := List.exists_cons_of_ne_nil (h.admitting.holding hHolding)
  exact not_step_of_runMove? hStuck (by simp [runMoves]) (.spawn hHolding hPending)

theorem wait (h : Scheduled cfg w queries t) {r : Runnable} {rest : List Runnable} {task : Task}
    {delay : Nat} (hReady : t.ready = r :: rest) (hUnfired : t.state.fired = false)
    (hTask : t.state.tasks[r.index]? = some task) (hWaits : isWaiting task = true) :
    Scheduled cfg w queries
      { t with ready := rest, waiting := t.waiting ++ [⟨r.index, t.now + delay⟩] } := by
  refine ⟨h.reached, fun i other hOther hUnended => ?_, fun hFired => ?_, h.handed, h.punctual⟩
  · simp only [Tracks, List.map_append, List.mem_append]
    rcases h.tracked i other hOther hUnended with hMem | ⟨hOtherWaits, hMem⟩
    · rw [hReady, List.map_cons, List.mem_cons] at hMem
      rcases hMem with rfl | hRest
      · obtain rfl := Option.some.inj (hTask.symm.trans hOther)
        exact .inr ⟨hWaits, .inr (by simp)⟩
      · exact .inl hRest
    · exact .inr ⟨hOtherWaits, .inl hMem⟩
  · have hToken : t.state.fired = true := hFired
    simp [hUnfired] at hToken

theorem drop (h : Scheduled cfg w queries t) {r : Runnable} {rest : List Runnable}
    (hReady : t.ready = r :: rest)
    (hOver : ∀ task, t.state.tasks[r.index]? = some task → task.hasEnded = true) :
    Scheduled cfg w queries { t with ready := rest } := by
  refine ⟨h.reached, fun i task hTask hUnended => ?_, h.idle, h.handed, h.punctual⟩
  refine (h.tracked i task hTask hUnended).imp (fun hMem => ?_) id
  rw [hReady, List.map_cons, List.mem_cons] at hMem
  rcases hMem with rfl | hRest
  · simp [hOver task hTask] at hUnended
  · exact hRest

/-- After a move of a runnable task the schedule comes back to it unless it is over, and if the token
has fired, to every task that waited. -/
theorem move (h : Scheduled cfg w queries t) {r : Runnable} {rest : List Runnable} {m : Move}
    {s' : State} (hTurn : t.turn = .tasks) (hReady : t.ready = r :: rest)
    (hAbout : m.index? = some r.index ∨ m = .fire) (hStep : Step cfg t.state m s')
    (hStarted : ∀ task, s'.tasks[r.index]? = some task → task.phase ≠ .spawned) :
    Scheduled cfg w queries
      ({ t with
        ready := if goesOn s' r.index then ⟨r.index, false⟩ :: rest else rest }.after s') := by
  have hReached := h.reached_step hStep
  obtain ⟨hAdmission, -, -, hOthers⟩ := tasks_of_about hStep hAbout
  generalize hNext : (if goesOn s' r.index then (⟨r.index, false⟩ : Runnable) :: rest else rest) =
    next
  have hRest : ∀ i ∈ rest.map Runnable.index, i ∈ next.map Runnable.index := by
    intro i hMem
    rw [← hNext]
    split
    · exact List.mem_cons_of_mem _ hMem
    · exact hMem
  -- A task other than the runnable one is tracked as before, without the head of the queue.
  have hOld (i : Nat) (task : Task) (hOther : i ≠ r.index) (hTask : s'.tasks[i]? = some task)
      (hUnended : task.hasEnded = false) : i ∈ next.map Runnable.index ∨
        (isWaiting task = true ∧ i ∈ t.waiting.map Waiting.index) := by
    refine (h.tracked i task (hOthers i hOther ▸ hTask) hUnended).imp (fun hMem => ?_) id
    rw [hReady, List.map_cons, List.mem_cons] at hMem
    exact hRest i (hMem.resolve_left hOther)
  rcases fired_cases (t := { t with ready := next }) hStep with hSame | ⟨hUnfired, hFired⟩
  · obtain ⟨hAfter, hWaiting⟩ := after_of_kept hSame
    refine ⟨by simpa using hReached, fun i task hTask hUnended => ?_, fun hNow => ?_,
      fun _ => by simpa [hAdmission] using h.handed (.inl hTurn), by simpa using h.punctual⟩
    · rw [after_state] at hTask
      rw [Tracks, hAfter, hWaiting]
      by_cases hOwn : i = r.index
      · -- Had the token fired before, the move would have ended the task; so it goes on at once.
        subst hOwn
        have hUnfired : s'.fired = false := by
          refine Bool.eq_false_iff.mpr fun hFired => ?_
          have hEnded := hasEnded_of_about hStep hAbout (hSame ▸ hFired) hTask
          simp [hUnended] at hEnded
        have hWaits := isWaiting_of_started (hStarted task hTask) hUnended
        refine .inl ?_
        rw [← hNext]
        simp [goesOn, hUnfired, hTask, hWaits]
      · exact hOld i task hOwn hTask hUnended
    · rw [hWaiting]
      exact h.idle (by simpa [hSame] using hNow)
  · obtain ⟨hAfter, hWaiting⟩ := after_of_fired hUnfired hFired
    refine ⟨by simpa using hReached, fun i task hTask hUnended => .inl ?_, fun _ => hWaiting,
      fun _ => by simpa [hAdmission] using h.handed (.inl hTurn), by simpa using h.punctual⟩
    rw [after_state] at hTask
    by_cases hWaits : isWaiting task = true
    · exact mem_ready_of_fired hUnfired hFired hTask hWaits
    · -- A task that does not wait has not started, so it is another one and was runnable.
      have hOther : i ≠ r.index := by
        rintro rfl
        exact hWaits (isWaiting_of_started (hStarted task hTask) hUnended)
      have hMem := (hOld i task hOther hTask hUnended).resolve_right fun hBoth => hWaits hBoth.1
      rw [hAfter, List.map_append, List.mem_append]
      exact .inl hMem

/-- Time moves on while the token has not fired, and not past the moment at which it fires. -/
theorem time_le (h : Scheduled cfg w queries t) {time : Nat} (hTime : nextTime? w t = some time) :
    t.state.fired = false ∧ ∀ limit, w.fireAt = some limit → time ≤ limit := by
  cases hFired : t.state.fired with
  | true => simp [nextTime?, hFired, h.idle hFired] at hTime
  | false =>
    refine ⟨rfl, fun limit hLimit => ?_⟩
    refine (List.min?_eq_some_iff.mp hTime).2 limit ?_
    simp [hFired, hLimit]

theorem pass (h : Scheduled cfg w queries t) {time : Nat} (hTurn : t.turn = .tasks)
    (hReady : t.ready = []) (hTime : nextTime? w t = some time) :
    Scheduled cfg w queries (advance cfg w t time) := by
  obtain ⟨hUnfired, hLimit⟩ := h.time_le hTime
  by_cases hFire : w.fireAt = some time
  · rw [advance_of_fire hUnfired hFire]
    have hWaiting : ({ t with now := time }.after { t.state with fired := true }).waiting = [] :=
      (after_of_fired (t := { t with now := time }) hUnfired rfl).2
    refine ⟨by simpa using h.reached_step (.fire hUnfired), fun i task hTask hUnended => .inl ?_,
      fun _ => hWaiting, fun _ => by simpa using h.handed (.inl hTurn), by simpa using hLimit⟩
    rw [after_state] at hTask
    refine mem_ready_of_fired (t := { t with now := time }) hUnfired rfl hTask ?_
    rcases h.tracked i task hTask hUnended with hMem | ⟨hWaits, -⟩
    · simp [hReady] at hMem
    · exact hWaits
  · rw [advance_of_quiet (.inr hFire)]
    refine ⟨h.reached, fun i task hTask hUnended => ?_, fun hFired => ?_, h.handed, hLimit⟩
    · rcases h.tracked i task hTask hUnended with hMem | ⟨hWaits, hMem⟩
      · simp [hReady] at hMem
      · -- The call of the task is due now or goes on waiting.
        obtain ⟨c, hCall, rfl⟩ := List.mem_map.mp hMem
        by_cases hDue : c.due ≤ time
        · refine .inl (List.mem_map.mpr ⟨⟨c.index, true⟩, ?_, rfl⟩)
          exact List.mem_append_right _ (List.mem_map.mpr ⟨c, by simp [hCall, hDue], rfl⟩)
        · exact .inr ⟨hWaits, List.mem_map.mpr ⟨c, by simp [hCall, hDue], rfl⟩⟩
    · have hToken : t.state.fired = true := hFired
      simp [hUnfired] at hToken

/-- Every tick keeps the invariant. -/
theorem tick (h : Scheduled cfg w queries t) (hTick : Tick cfg w t t') :
    Scheduled cfg w queries t' := by
  cases hTick with
  | spawn hTurn hStep => exact h.spawn hStep
  | own hTurn hMem hMove hStep => exact h.own hTurn hMem hMove hStep
  | yield hTurn hStuck =>
    exact ⟨h.reached, h.tracked, h.idle, fun _ => h.not_holding_of_stuck hStuck, h.punctual⟩
  | wait hTurn hReady hReplied hUnfired hTask hWaits => exact h.wait hReady hUnfired hTask hWaits
  | drop hTurn hReady hOver => exact h.drop hReady hOver
  | move hTurn hReady hAbout hStep hStarted => exact h.move hTurn hReady hAbout hStep hStarted
  | resume hTurn hReady hCan =>
    exact ⟨h.reached, h.tracked, h.idle, fun hNow => h.handed (hNow.imp nofun id), h.punctual⟩
  | pass hTurn hReady hStuck hTime => exact h.pass hTurn hReady hTime

theorem runFor (h : Scheduled cfg w queries t) (fuel : Nat) :
    Scheduled cfg w queries (runFor cfg w fuel t) := by
  induction fuel generalizing t with
  | zero => exact h
  | succ fuel ih =>
    rw [Timeline.runFor]
    cases hNext : next? cfg w t with
    | none => exact h
    | some t₁ => exact ih (h.tick (.of_next? h.stable hNext))

end Scheduled

end SqlMetrics.Collector
