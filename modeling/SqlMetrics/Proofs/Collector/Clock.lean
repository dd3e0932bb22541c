import Mathlib
import SqlMetrics.Proofs.Collector.Alone
import SqlMetrics.Proofs.Collector.Course

/-!
# Times of queries

In virtual time a query takes as long as its call of the data source and its export take together.
This file follows the timelines of a run in which the token does not fire, and shows that every
query ends so long after it has started.

- **Times**: `Timeline.HoldsFrom` says from when on something is so in a run.
- **Durations**: `World.duration` is what the calls of a query take, and `delays_rest` follows it
  through the moves of its task.
- **Invariant**: `Clocked` says of every query at work when its current call comes to something, and
  what is left after that (`clocked_trace`).
-/

namespace SqlMetrics.Collector

/-! ## Durations -/

/-- What a call answers; `none` when it does not. -/
def answerOf {α : Type} : Reply α → Option α
  | .answered answer _ => some answer
  | .interrupted | .crashed _ _ => none

/-- What the calls of a run come to in this world, where the token does not fire, with the reading
of the clock for a query that starts at this time. -/
def World.answers (w : World) (start : Nat) : Answers where
  shell command := (w.shell command).getD (.notStarted .nulByte)
  source call := answerOf (w.source call).value
  exporter service points := answerOf (w.exporter service points).value
  now := w.clock start

/-- How long something that a query does outside takes. -/
def World.delay (w : World) : External → Nat
  | .call _ call => (w.source call).delay
  | .exportBegun _ service points => (w.exporter service points).delay
  | .command _ _ | .delivered _ _ _ => 0

/-- How long an account takes. -/
def World.delays (w : World) (account : Account) : Nat :=
  (account.externals.map w.delay).sum

/-- How long a query takes that starts at this time: its call of the data source, if it makes one,
and then its export, if it comes so far. -/
def World.duration (w : World) (service : String) (q : Query) (start : Nat) : Nat :=
  let report := (w.answers start).execution q
  (report.calls.map fun call => (w.source call).delay).sum +
    match report.result with
    | some ⟨_, .ok points⟩ => (w.exporter (q.serviceOr service) points).delay
    | some ⟨_, .error _⟩ | none => 0

section Durations

variable {cfg : Settings} {w : World} {index start : Nat}

theorem delays_after (before : List External) (rest : Account) :
    w.delays (rest.after before) = (before.map w.delay).sum + w.delays rest := by
  simp [World.delays, Account.after]

/-- What a query does on its own takes the duration of the query. -/
theorem delays_alone (q : Query) :
    w.delays ((w.answers start).alone cfg index q) = w.duration cfg.defaultService q start := by
  have hCommands (l : List String) : ((l.map (External.command index)).map w.delay).sum = 0 := by
    induction l with
    | nil => rfl
    | cons command rest ih => simpa [World.delay] using ih
  have hCalls (l : List SourceCall) : ((l.map (External.call index)).map w.delay).sum =
      (l.map fun call => (w.source call).delay).sum := by
    rw [List.map_map]
    rfl
  simp only [Answers.alone, delays_after, List.map_append, List.sum_append, hCommands, hCalls,
    World.duration, Nat.zero_add, Nat.add_left_cancel_iff]
  cases ((w.answers start).execution q).result with
  | none => rfl
  | some x =>
    obtain ⟨skips, result⟩ := x
    cases result with
    | error e => rfl
    | ok points =>
      -- Nothing that comes after the export takes time.
      have hRest : w.delays ((w.answers start).afterBegin cfg index q points) = 0 := by
        unfold Answers.afterBegin
        dsimp only
        split <;> rfl
      simp only [Answers.afterExecution, Answers.afterExtraction, delays_after, hRest]
      rfl

/-- How long the call that a task waits for takes. -/
def Task.callDelay (cfg : Settings) (w : World) (index : Nat) (t : Task) : Nat :=
  ((t.awaited? cfg index).map w.delay).getD 0

theorem Timeline.callDelay_eq {s : State} {t : Task} (hTask : s.tasks[index]? = some t) :
    callDelay cfg w s index = t.callDelay cfg w index := by
  obtain ⟨q, phase⟩ := t
  unfold callDelay Task.callDelay Task.awaited?
  rw [hTask]
  cases phase with
  | executing x => cases x <;> rfl
  | spawned | exporting | ended => rfl

/-- A task that is over takes no more time. -/
theorem delays_of_hasEnded {t : Task} (h : t.hasEnded = true) :
    t.callDelay cfg w index + w.delays ((w.answers start).rest cfg index t) = 0 := by
  obtain ⟨q, phase⟩ := t
  cases phase with
  | ended error => rfl
  | spawned | executing | exporting => cases h

/-- A move that does not fire the token begins the call that its task then waits for. -/
theorem delay_of_effect? {t : Task} {m : Move} {e : TaskEffect}
    (hIndex : m.index? = some index) (hEffect : t.effect? cfg false m = some e)
    (hKept : e.fires = false) :
    (e.externals.map w.delay).sum = Task.callDelay cfg w index ⟨t.query, e.phase⟩ := by
  cases Change.of_effect? hIndex hEffect with
  | command | call | exporting | delivered | failed => rfl
  | interrupted => cases hKept

/-- **A move does a piece of what takes time**: the call that it begins, and what is left to do
afterwards, take as long as what was left to do before. -/
theorem delays_rest {t : Task} {m : Move} {e : TaskEffect}
    (hAllowed : (w.answers start).AllowsTask cfg t m) (hIndex : m.index? = some index)
    (hEffect : t.effect? cfg false m = some e) :
    w.delays ((w.answers start).rest cfg index t) =
      Task.callDelay cfg w index ⟨t.query, e.phase⟩ +
        w.delays ((w.answers start).rest cfg index ⟨t.query, e.phase⟩) := by
  obtain ⟨hKept, hRest⟩ := Answers.rest_of_effect? hAllowed hIndex hEffect
  rw [hRest, delays_after, delay_of_effect? hIndex hEffect hKept]

end Durations

namespace Timeline

variable {cfg : Settings} {w : World} {queries : List Query}

/-! ## The timelines of a run -/

/-- The timeline of a run after so many steps. -/
def trace (cfg : Settings) (w : World) (queries : List Query) (n : Nat) : Timeline :=
  runFor cfg w n (init cfg queries (w.fireAt == some 0))

theorem scheduled_trace (cfg : Settings) (w : World) (queries : List Query) (n : Nat) :
    Scheduled cfg w queries (trace cfg w queries n) :=
  Scheduled.init.runFor n

/-- One step more is a next step, or the run has come to its end. -/
theorem trace_succ (cfg : Settings) (w : World) (queries : List Query) (n : Nat) :
    next? cfg w (trace cfg w queries n) = some (trace cfg w queries (n + 1)) ∨
      (next? cfg w (trace cfg w queries n) = none ∧
        trace cfg w queries (n + 1) = trace cfg w queries n) := by
  have hMore : trace cfg w queries (n + 1) = runFor cfg w 1 (trace cfg w queries n) :=
    runFor_add n 1
  rw [hMore, runFor]
  cases hNext : next? cfg w (trace cfg w queries n) with
  | none => exact .inr ⟨rfl, rfl⟩
  | some t => exact .inl rfl

/-- After as many steps as it has fuel for, a run has come to its end. -/
theorem trace_of_bound_le {n : Nat} (h : stepBound queries ≤ n) :
    trace cfg w queries n = run cfg w queries := by
  obtain ⟨more, rfl⟩ := Nat.exists_eq_add_of_le h
  have hStuck := next?_runFor_eq_none (.init : Scheduled cfg w queries _)
    (potential_init_le queries _)
  rw [trace, runFor_add, runFor_of_next?_eq_none hStuck]
  rfl

/-- As time moves on, nothing happens to the state unless the token fires. -/
theorem advance_state_cases (t : Timeline) (time : Nat) :
    (advance cfg w t time).state = t.state ∨
      Step cfg t.state .fire (advance cfg w t time).state := by
  by_cases hFire : t.state.fired = false ∧ w.fireAt = some time
  · rw [advance_of_fire hFire.1 hFire.2, after_state]
    exact .inr (.fire hFire.1)
  · refine .inl ?_
    rw [advance_of_quiet]
    by_cases hFired : t.state.fired = true
    · exact .inl hFired
    · exact .inr fun hSame => hFire ⟨by simpa using hFired, hSame⟩

/-- A step of a timeline makes at most one move. -/
theorem Tick.state_cases {t t' : Timeline} (h : Tick cfg w t t') :
    t'.state = t.state ∨ ∃ m, Step cfg t.state m t'.state := by
  cases h with
  | spawn hTurn hStep | own hTurn hMem hMove hStep | move hTurn hReady hAbout hStep =>
    exact .inr ⟨_, by simpa using hStep⟩
  | yield | wait | drop | resume => exact .inl rfl
  | @pass time => exact (advance_state_cases t time).imp_right fun hStep => ⟨_, hStep⟩

/-- What every next step keeps, a run keeps from any of its timelines on. -/
theorem trace_induction {P : Timeline → Prop} {m n : Nat} (h : m ≤ n)
    (hStep : ∀ k, P (trace cfg w queries k) →
      next? cfg w (trace cfg w queries k) = some (trace cfg w queries (k + 1)) →
        P (trace cfg w queries (k + 1)))
    (hStart : P (trace cfg w queries m)) : P (trace cfg w queries n) := by
  obtain ⟨k, rfl⟩ := Nat.exists_eq_add_of_le h
  clear h
  induction k with
  | zero => exact hStart
  | succ k ih =>
    rw [← Nat.add_assoc]
    rcases trace_succ cfg w queries (m + k) with hNext | ⟨-, hSame⟩
    · exact hStep (m + k) ih hNext
    · rwa [hSame]

theorem tick_of_next? {n : Nat} {t : Timeline} (h : next? cfg w (trace cfg w queries n) = some t) :
    Tick cfg w (trace cfg w queries n) t :=
  Tick.of_next? (scheduled_trace cfg w queries n).stable h

/-- Later states of a run are reached from earlier ones. -/
theorem exists_run?_trace (cfg : Settings) (w : World) (queries : List Query) {m n : Nat}
    (h : m ≤ n) :
    ∃ moves, (trace cfg w queries m).state.run? cfg moves = some (trace cfg w queries n).state := by
  refine trace_induction (P := fun t =>
    ∃ moves, (trace cfg w queries m).state.run? cfg moves = some t.state) h ?_ ⟨[], rfl⟩
  intro k hBefore hNext
  obtain ⟨moves, hRun⟩ := hBefore
  rcases (tick_of_next? hNext).state_cases with hState | ⟨move, hStep⟩
  · exact ⟨moves, by rw [hState, hRun]⟩
  · exact ⟨moves ++ [move], State.run?_trans hRun (State.run?_singleton hStep)⟩

/-! ## Time goes forward -/

theorem advance_now (t : Timeline) (time : Nat) : (advance cfg w t time).now = time := by
  unfold advance
  dsimp only
  split
  · split <;> simp
  · rfl

theorem lt_due_of_mem_advance {t : Timeline} {time : Nat} {c : Waiting}
    (h : c ∈ (advance cfg w t time).waiting) : time < c.due := by
  have hFilter := (List.mem_filter.mp h).2
  simpa using hFilter

/-- A move forgets the calls that are under way, or none. -/
theorem after_waiting_cases (t : Timeline) (s' : State) :
    (t.after s').waiting = t.waiting ∨ (t.after s').waiting = [] := by
  unfold after
  dsimp only
  split
  · exact .inr rfl
  · exact .inl rfl

/-- A tick does not pass the time at which a call is due, and time does not go back. -/
theorem Tick.now_le {t t' : Timeline} (h : Tick cfg w t t') (hScheduled : Scheduled cfg w queries t)
    (hOld : ∀ c ∈ t.waiting, t.now ≤ c.due) :
    t.now ≤ t'.now ∧ ∀ c ∈ t'.waiting, t'.now ≤ c.due := by
  have hAfter (u : Timeline) (s' : State) (hUndue : ∀ c ∈ u.waiting, u.now ≤ c.due) :
      ∀ c ∈ (u.after s').waiting, (u.after s').now ≤ c.due := by
    intro c hMem
    rw [after_now]
    rcases after_waiting_cases u s' with hSame | hNone
    · exact hUndue c (hSame ▸ hMem)
    · simp [hNone] at hMem
  cases h with
  | spawn | own | move => exact ⟨by simp, hAfter _ _ hOld⟩
  | yield | drop | resume => exact ⟨Nat.le_refl _, hOld⟩
  | @wait r rest task delay =>
    refine ⟨Nat.le_refl _, fun c hMem => ?_⟩
    rcases List.mem_append.mp hMem with hBefore | hNew
    · exact hOld c hBefore
    · obtain rfl := List.mem_singleton.mp hNew
      exact Nat.le_add_right _ _
  | @pass time hTurn hReady hStuck hTime =>
    rw [advance_now]
    refine ⟨?_, fun c hMem => Nat.le_of_lt (lt_due_of_mem_advance hMem)⟩
    -- The next time is one at which a call is due, or that of the firing.
    rcases List.mem_append.mp (List.min?_eq_some_iff.mp hTime).1 with hDue | hFire
    · obtain ⟨c, hMem, rfl⟩ := List.mem_map.mp hDue
      exact hOld c hMem
    · split at hFire
      · cases hFire
      · exact hScheduled.punctual time (Option.mem_toList.mp hFire)

theorem now_le_due (n : Nat) :
    ∀ c ∈ (trace cfg w queries n).waiting, (trace cfg w queries n).now ≤ c.due := by
  refine trace_induction (P := fun t => ∀ c ∈ t.waiting, t.now ≤ c.due) (Nat.zero_le n) ?_ nofun
  intro k hBefore hNext
  exact ((tick_of_next? hNext).now_le (scheduled_trace cfg w queries k) hBefore).2

theorem now_le_now {m n : Nat} (h : m ≤ n) :
    (trace cfg w queries m).now ≤ (trace cfg w queries n).now := by
  refine trace_induction (P := fun t => (trace cfg w queries m).now ≤ t.now) h ?_ (Nat.le_refl _)
  intro k hBefore hNext
  have hTick := tick_of_next? hNext
  exact Nat.le_trans hBefore (hTick.now_le (scheduled_trace cfg w queries k) (now_le_due k)).1

/-! ## From when on something is so -/

/-- Whether a run has come to a state of which this holds by some time just if the time is this one
or later. -/
def HoldsFrom (cfg : Settings) (w : World) (queries : List Query) (p : State → Bool)
    (start : Nat) : Prop :=
  ∀ time, (∃ n, (trace cfg w queries n).now ≤ time ∧ p (trace cfg w queries n).state = true) ↔
    start ≤ time

/-- Whether what holds of a state holds after every step. -/
def Kept (cfg : Settings) (p : State → Bool) : Prop :=
  ∀ s m s', Step cfg s m s' → p s = true → p s' = true

theorem kept_hasStartedAt (i : Nat) : Kept cfg fun s => s.hasStartedAt i :=
  fun _ _ _ hStep => State.hasStartedAt_of_step hStep

theorem kept_hasEndedAt (i : Nat) : Kept cfg fun s => s.hasEndedAt i :=
  fun _ _ _ hStep => State.hasEndedAt_of_step hStep

theorem kept_returned : Kept cfg fun s => s.returned.isSome := by
  intro s m s' hStep hReturned
  cases hStep with
  | finish => rfl
  | task => simpa using hReturned
  | _ => exact hReturned

theorem Kept.trace {p : State → Bool} (hKept : Kept cfg p) {m n : Nat} (h : m ≤ n)
    (hp : p (trace cfg w queries m).state = true) : p (trace cfg w queries n).state = true := by
  obtain ⟨moves, hRun⟩ := exists_run?_trace cfg w queries h
  refine State.run?_induction (P := fun s => p s = true) ?_ hRun hp
  intro s m s' hBefore hStep
  exact hKept s m s' hStep hBefore

/-- What a step brings about holds from its time on. -/
theorem holdsFrom_of_change {p : State → Bool} (hKept : Kept cfg p) {n : Nat}
    (hBefore : p (trace cfg w queries n).state = false)
    (hAfter : p (trace cfg w queries (n + 1)).state = true) :
    HoldsFrom cfg w queries p (trace cfg w queries (n + 1)).now := by
  intro time
  refine ⟨fun hSome => ?_, fun hLate => ⟨n + 1, hLate, hAfter⟩⟩
  obtain ⟨k, hTime, hp⟩ := hSome
  have hLater : n + 1 ≤ k := by
    refine Nat.lt_of_not_le fun hEarlier => ?_
    have hThen := hKept.trace hEarlier hp
    rw [hBefore] at hThen
    cases hThen
  exact Nat.le_trans (now_le_now hLater) hTime

/-! ## Moves of tasks -/

/-- What a task does when it has its turn, in more detail than a tick tells. -/
inductive TaskTurn (cfg : Settings) (w : World) (t : Timeline) (r : Runnable)
    (rest : List Runnable) : Timeline → Prop where
  /-- It begins to wait for a call that takes time. -/
  | wait (hReplied : r.replied = false) :
      TaskTurn cfg w t r rest { t with
        ready := rest
        waiting := t.waiting ++ [⟨r.index, t.now + callDelay cfg w t.state r.index⟩] }
  /-- It is over. -/
  | drop : TaskTurn cfg w t r rest { t with ready := rest }
  /-- It makes a move; the call that it has waited for, if any, is done. -/
  | move {task : Task} {m : Move} {s' : State}
      (hDone : r.replied = true ∨ t.state.fired = true ∨ callDelay cfg w t.state r.index = 0)
      (hTask : t.state.tasks[r.index]? = some task)
      (hMove : moveOf cfg w t.state t.now r = some m)
      (hAbout : m.index? = some r.index ∨ m = .fire) (hStep : Step cfg t.state m s') :
      TaskTurn cfg w t r rest
        ({ t with ready := if goesOn s' r.index then ⟨r.index, false⟩ :: rest else rest }.after s')

theorem TaskTurn.of_stepTask {t : Timeline} (hStable : t.state.Stable) (r : Runnable)
    (rest : List Runnable) : TaskTurn cfg w t r rest (stepTask cfg w t r rest) := by
  unfold stepTask
  dsimp only
  by_cases hCall : (!r.replied && !t.state.fired &&
      decide (0 < callDelay cfg w t.state r.index)) = true
  · rw [if_pos hCall]
    simp only [Bool.and_eq_true, Bool.not_eq_true'] at hCall
    exact .wait hCall.1.1
  · rw [if_neg hCall]
    by_cases hOver : ∀ task, t.state.tasks[r.index]? = some task → task.hasEnded = true
    · cases hMove : (exportMove cfg w t.state r).or (taskMove w t.state t.now r) with
      | none => exact .drop
      | some m =>
        simp only [step?_of_over hOver hMove]
        exact .drop
    · obtain ⟨task, hTask, hUnended⟩ : ∃ task, t.state.tasks[r.index]? = some task ∧
          task.hasEnded = false := by simpa using hOver
      obtain ⟨m, s', hMove, hAbout, hStep, -⟩ :=
        exists_step_of_runnable cfg w hStable t.now hTask hUnended
      have hOr : (exportMove cfg w t.state r).or (taskMove w t.state t.now r) = some m := hMove
      simp only [hOr, hStep.step?]
      refine TaskTurn.move ?_ hTask hMove hAbout hStep
      simp only [Bool.and_eq_true, Bool.not_eq_true', decide_eq_true_eq] at hCall
      cases hReplied : r.replied with
      | true => exact .inl rfl
      | false =>
        cases hFired : t.state.fired with
        | true => exact .inr (.inl rfl)
        | false => exact .inr (.inr (Nat.eq_zero_of_not_pos fun hPos =>
            hCall ⟨⟨hReplied, hFired⟩, hPos⟩))

theorem TaskTurn.of_next? {t t' : Timeline} (hStable : t.state.Stable) {r : Runnable}
    {rest : List Runnable} (hTurn : t.turn = .tasks) (hReady : t.ready = r :: rest)
    (hNext : next? cfg w t = some t') : TaskTurn cfg w t r rest t' := by
  unfold next? at hNext
  split at hNext
  · cases hNext
  · simp only [hTurn, hReady, Option.some.injEq] at hNext
    exact hNext ▸ .of_stepTask hStable r rest

/-! ## Moves that bring answers -/

/-- Whether a call that comes to this fires the token. -/
def firesWith {α : Type} : Reply α → Bool
  | .answered _ fires | .crashed _ fires => fires
  | .interrupted => true

theorem isReply_answerOf {α : Type} {reply : Reply α} (h : firesWith reply = false) :
    IsReply (answerOf reply) reply := by
  cases reply with
  | answered =>
    obtain rfl : _ = false := h
    rfl
  | interrupted => cases h
  | crashed report =>
    obtain rfl : _ = false := h
    exact ⟨report, rfl⟩

/-- The move of a task brings the answer of the world, unless it fires the token. -/
theorem allowsTask_of_moveOf {s : State} {time start : Nat} {r : Runnable} {t : Task} {m : Move}
    {e : TaskEffect} (hTask : s.tasks[r.index]? = some t) (hUnfired : s.fired = false)
    (hMove : moveOf cfg w s time r = some m) (hEffect : t.effect? cfg false m = some e)
    (hKept : e.fires = false) (hStart : t.phase = .spawned → start = time) :
    (w.answers start).AllowsTask cfg t m := by
  obtain ⟨q, phase⟩ := t
  cases TaskMove.of_effect? hEffect with
  | start i now hPhase =>
    obtain rfl : phase = .spawned := hPhase
    obtain rfl := hStart rfl
    simp only [moveOf, exportMove, taskMove, hTask, Option.none_or, Option.some.injEq,
      Move.start.injEq] at hMove
    exact hMove.2.symm
  | @commandEnds i outcome now values command rest _ hPhase =>
    obtain rfl : phase = .executing (.evaluating now values command rest) := hPhase
    intro now' values' command' rest' hSame
    cases hSame
    cases hShell : w.shell command with
    | none => simp [moveOf, exportMove, taskMove, hTask, hUnfired, hShell] at hMove
    | some outcome' =>
      simp only [moveOf, exportMove, taskMove, hTask, hUnfired, hShell] at hMove
      cases hMove
      simp [World.answers, hShell]
  | @sourceReplies i reply now params _ hPhase =>
    obtain rfl : phase = .executing (.querying now params) := hPhase
    intro now' params' hSame
    cases hSame
    simp only [moveOf, exportMove, taskMove, hTask, hUnfired] at hMove
    cases hMove
    refine isReply_answerOf ?_
    rw [← hKept]
    cases (w.source ⟨q.sql, params⟩).value <;> rfl
  | @exportReplies i reply points _ hPhase =>
    obtain rfl : phase = .exporting points := hPhase
    intro points' hSame
    cases hSame
    simp only [moveOf, exportMove, taskMove, hTask, hUnfired] at hMove
    cases hMove
    refine isReply_answerOf ?_
    rw [← hKept]
    cases (w.exporter (q.serviceOr cfg.defaultService) points).value with
    | answered answer => cases answer <;> rfl
    | interrupted | crashed => rfl
  | wake => exact trivial

/-! ## The invariant of the clock -/

/-- Whether the call that the task with this index waits for, if it is at work, comes to something
at this time: with what is left to do then, the task takes as long as it should. -/
def Due (cfg : Settings) (w : World) (queries : List Query) (duration : Nat → Nat) (s : State)
    (i time : Nat) : Prop :=
  ∀ task, s.tasks[i]? = some task → task.hasEnded = false → task.phase ≠ .spawned →
    ∃ start, HoldsFrom cfg w queries (fun s => s.hasStartedAt i) start ∧
      time + w.delays ((w.answers start).rest cfg i task) = start + duration i

/-- The indices of the tasks that the schedule will come back to. -/
def comingBack (t : Timeline) : List Nat :=
  t.ready.map Runnable.index ++ t.waiting.map Waiting.index

end Timeline

/-- What holds of every timeline of a run in which the token does not fire:
1. no task is runnable or under way twice;
2. those that are belong to admitted queries;
3. a runnable task makes its call now, or has got its answer now;
4. a call under way is due when its answer comes;
5. a query that has ended did so as long after its start as it takes. -/
structure Clocked (cfg : Settings) (w : World) (queries : List Query) (duration : Nat → Nat)
    (t : Timeline) : Prop where
  nodup : t.comingBack.Nodup
  known : ∀ i ∈ t.comingBack, i < t.state.tasks.length
  runnable : ∀ r ∈ t.ready, Timeline.Due cfg w queries duration t.state r.index
    (t.now + if r.replied then 0 else Timeline.callDelay cfg w t.state r.index)
  underway : ∀ c ∈ t.waiting, Timeline.Due cfg w queries duration t.state c.index c.due
  ended : ∀ i, t.state.hasEndedAt i = true → ∃ start,
    Timeline.HoldsFrom cfg w queries (fun s => s.hasStartedAt i) start ∧
      Timeline.HoldsFrom cfg w queries (fun s => s.hasEndedAt i) (start + duration i)

namespace Clocked

open Timeline

variable {cfg : Settings} {w : World} {queries : List Query} {duration : Nat → Nat}
  {t t' : Timeline} {s s' : State}

theorem due_congr {i time : Nat} (hSame : s'.tasks[i]? = s.tasks[i]?)
    (h : Due cfg w queries duration s i time) : Due cfg w queries duration s' i time := by
  intro task hTask
  exact h task (hSame ▸ hTask)

theorem callDelay_congr {i : Nat} (hSame : s'.tasks[i]? = s.tasks[i]?) :
    callDelay cfg w s' i = callDelay cfg w s i := by
  unfold callDelay
  rw [hSame]

/-- A step that leaves the tasks and the schedule as they are keeps the invariant. -/
theorem keep (h : Clocked cfg w queries duration t) (hTasks : t'.state.tasks = t.state.tasks)
    (hNow : t'.now = t.now) (hReady : t'.ready = t.ready) (hWaiting : t'.waiting = t.waiting) :
    Clocked cfg w queries duration t' := by
  have hSame (i : Nat) : t'.state.tasks[i]? = t.state.tasks[i]? := by rw [hTasks]
  have hBack : t'.comingBack = t.comingBack := by rw [comingBack, comingBack, hReady, hWaiting]
  refine ⟨hBack ▸ h.nodup, ?_, ?_, ?_, ?_⟩
  · rw [hBack, hTasks]
    exact h.known
  · rw [hReady, hNow]
    intro r hMem
    rw [callDelay_congr (hSame r.index)]
    exact due_congr (hSame r.index) (h.runnable r hMem)
  · rw [hWaiting]
    exact fun c hMem => due_congr (hSame c.index) (h.underway c hMem)
  · intro i hEnded
    refine h.ended i ?_
    rwa [State.hasEndedAt, ← hSame i]

/-- A new task is runnable and has not started. -/
theorem spawn (h : Clocked cfg w queries duration t) {s' : State}
    (hStep : Step cfg t.state .spawn s') :
    Clocked cfg w queries duration
      { t.after s' with ready := t.ready ++ [⟨t.state.tasks.length, false⟩] } := by
  obtain ⟨-, hWaiting⟩ := after_of_kept (fired_of_mem_runMoves (by simp [runMoves]) hStep)
  cases hStep with
  | task hIndex => cases hIndex
  | @spawn q rest hHolding hPending =>
    have hSame {i : Nat} (hlt : i < t.state.tasks.length) :
        (t.state.tasks ++ [⟨q, .spawned⟩])[i]? = t.state.tasks[i]? :=
      List.getElem?_append_left hlt
    have hReady {r : Runnable} (hMem : r ∈ t.ready) : r.index < t.state.tasks.length :=
      h.known _ (List.mem_append_left _ (List.mem_map_of_mem hMem))
    have hUnderway {c : Waiting} (hMem : c ∈ t.waiting) : c.index < t.state.tasks.length :=
      h.known _ (List.mem_append_right _ (List.mem_map_of_mem hMem))
    have hPerm : (t.ready.map Runnable.index ++ [t.state.tasks.length] ++
        t.waiting.map Waiting.index).Perm (t.state.tasks.length :: t.comingBack) := by
      rw [List.append_assoc]
      exact List.perm_middle
    refine ⟨?_, ?_, ?_, ?_, ?_⟩
    · simp only [comingBack, hWaiting, List.map_append, List.map_cons, List.map_nil]
      refine hPerm.nodup_iff.mpr (List.nodup_cons.mpr ⟨fun hMem => ?_, h.nodup⟩)
      exact Nat.lt_irrefl _ (h.known _ hMem)
    · simp only [comingBack, hWaiting, List.map_append, List.map_cons, List.map_nil, after_state,
        List.length_append, List.length_singleton]
      intro i hMem
      rcases List.mem_cons.mp (hPerm.mem_iff.mp hMem) with rfl | hOld
      · exact Nat.lt_succ_self _
      · exact Nat.lt_succ_of_lt (h.known i hOld)
    · simp only [after_state, after_now]
      intro r hMem
      rcases List.mem_append.mp hMem with hOld | hNew
      · rw [callDelay_congr (hSame (hReady hOld))]
        exact due_congr (hSame (hReady hOld)) (h.runnable r hOld)
      · -- The new task has not started.
        obtain rfl := List.mem_singleton.mp hNew
        intro task hTask hUnended hStarted
        rw [List.getElem?_concat_length] at hTask
        cases hTask
        exact absurd rfl hStarted
    · simp only [after_state, hWaiting]
      exact fun c hMem => due_congr (hSame (hUnderway hMem)) (h.underway c hMem)
    · intro i hEnded
      refine h.ended i ?_
      obtain ⟨task, hTask, hOver⟩ := State.hasEndedAt_eq_true.mp hEnded
      rw [after_state] at hTask
      rcases State.getElem?_append_spawned hTask with ⟨-, rfl⟩ | hOld
      · cases hOver
      · exact State.hasEndedAt_eq_true.mpr ⟨task, hOld, hOver⟩

/-- A call that takes time is under way until then. -/
theorem wait (h : Clocked cfg w queries duration t) {r : Runnable} {rest : List Runnable}
    (hReady : t.ready = r :: rest) (hReplied : r.replied = false) :
    Clocked cfg w queries duration { t with
      ready := rest
      waiting := t.waiting ++ [⟨r.index, t.now + callDelay cfg w t.state r.index⟩] } := by
  have hPerm : (rest.map Runnable.index ++ (t.waiting.map Waiting.index ++ [r.index])).Perm
      t.comingBack := by
    rw [comingBack, hReady, List.map_cons, List.cons_append, ← List.append_assoc]
    exact List.perm_append_singleton _ _
  refine ⟨?_, ?_, ?_, ?_, h.ended⟩
  · simp only [comingBack, List.map_append, List.map_cons, List.map_nil]
    exact hPerm.nodup_iff.mpr h.nodup
  · simp only [comingBack, List.map_append, List.map_cons, List.map_nil]
    exact fun i hMem => h.known i (hPerm.mem_iff.mp hMem)
  · exact fun other hMem => h.runnable other (hReady ▸ List.mem_cons_of_mem r hMem)
  · intro c hMem
    rcases List.mem_append.mp hMem with hOld | hNew
    · exact h.underway c hOld
    · obtain rfl := List.mem_singleton.mp hNew
      have hDue := h.runnable r (hReady ▸ List.mem_cons_self)
      rwa [hReplied, if_neg Bool.false_ne_true] at hDue

theorem drop (h : Clocked cfg w queries duration t) {r : Runnable} {rest : List Runnable}
    (hReady : t.ready = r :: rest) : Clocked cfg w queries duration { t with ready := rest } := by
  have hBack : t.comingBack = r.index :: { t with ready := rest }.comingBack := by
    simp [comingBack, hReady]
  have hNodup := h.nodup
  rw [hBack] at hNodup
  refine ⟨(List.nodup_cons.mp hNodup).2, fun i hMem => h.known i ?_, fun other hMem => ?_,
    h.underway, h.ended⟩
  · rw [hBack]
    exact List.mem_cons_of_mem _ hMem
  · exact h.runnable other (hReady ▸ List.mem_cons_of_mem r hMem)

/-- When time moves on, the calls that are due have got their answers. -/
theorem pass (h : Clocked cfg w queries duration t) {time : Nat} (hReady : t.ready = [])
    (hTime : nextTime? w t = some time) (hQuiet : t.state.fired = true ∨ w.fireAt ≠ some time) :
    Clocked cfg w queries duration (advance cfg w t time) := by
  rw [advance_of_quiet hQuiet]
  have hPerm : ((t.ready ++ (t.waiting.filter fun c : Waiting => c.due ≤ time).map
        fun c => (⟨c.index, true⟩ : Runnable)).map Runnable.index ++
      (t.waiting.filter fun c : Waiting => !(c.due ≤ time)).map Waiting.index).Perm
        t.comingBack := by
    simp only [comingBack, hReady, List.nil_append, List.map_map, List.map_nil]
    have hSplit := List.filter_append_perm (fun c : Waiting => decide (c.due ≤ time)) t.waiting
    have hIndices := hSplit.map Waiting.index
    rwa [List.map_append] at hIndices
  refine ⟨hPerm.nodup_iff.mpr h.nodup, fun i hMem => h.known i (hPerm.mem_iff.mp hMem), ?_, ?_,
    h.ended⟩
  · intro r hMem
    simp only [hReady, List.nil_append, List.mem_map, List.mem_filter, decide_eq_true_eq] at hMem
    obtain ⟨c, ⟨hWaits, hLe⟩, rfl⟩ := hMem
    -- No call is due before the next time.
    have hGe : time ≤ c.due :=
      (List.min?_eq_some_iff.mp hTime).2 _ (List.mem_append_left _ (List.mem_map_of_mem hWaits))
    have hDue := h.underway c hWaits
    rwa [Nat.le_antisymm hLe hGe] at hDue
  · exact fun c hMem => h.underway c (List.mem_filter.mp hMem).1

/-- What a query is left with when its task makes a move is what it was left with before.  A query
that starts is left with its duration. -/
theorem exists_start (h : Clocked cfg w queries duration t)
    (hScheduled : Scheduled cfg w queries t)
    (hFixed : ∀ i q, queries[i]? = some q → ∀ start,
      w.duration cfg.defaultService q start = duration i)
    {r : Runnable} {rest : List Runnable} (hReady : t.ready = r :: rest) {task : Task}
    (hTask : t.state.tasks[r.index]? = some task) (hUnended : task.hasEnded = false)
    (hDone : r.replied = true ∨ callDelay cfg w t.state r.index = 0)
    (hStarts : task.phase = .spawned →
      HoldsFrom cfg w queries (fun s => s.hasStartedAt r.index) t.now) :
    ∃ start, HoldsFrom cfg w queries (fun s => s.hasStartedAt r.index) start ∧
      t.now + w.delays ((w.answers start).rest cfg r.index task) = start + duration r.index ∧
        (task.phase = .spawned → start = t.now) := by
  by_cases hSpawned : task.phase = .spawned
  · refine ⟨t.now, hStarts hSpawned, ?_, fun _ => rfl⟩
    have hlt : r.index < queries.length :=
      Nat.lt_of_lt_of_le (List.getElem?_eq_some_iff.mp hTask).1
        hScheduled.admitting.length_tasks_le
    have hQuery : task.query = queries[r.index] :=
      hScheduled.admitting.query_eq hTask (List.getElem?_eq_getElem hlt)
    obtain ⟨q, phase⟩ := task
    obtain rfl : phase = .spawned := hSpawned
    obtain rfl : q = queries[r.index] := hQuery
    rw [Answers.rest_spawned, delays_alone, hFixed _ _ (List.getElem?_eq_getElem hlt)]
  · obtain ⟨start, hHolds, hSum⟩ :=
      h.runnable r (hReady ▸ List.mem_cons_self) task hTask hUnended hSpawned
    refine ⟨start, hHolds, ?_, fun hNow => absurd hNow hSpawned⟩
    have hNone : (if r.replied then 0 else callDelay cfg w t.state r.index) = 0 := by
      rcases hDone with hReplied | hZero
      · rw [hReplied, if_pos rfl]
      · rw [hZero, ite_self]
    rwa [hNone] at hSum

/-- A move about a task that does not fire the token is a move of this task. -/
theorem exists_effect {s s' : State} {m : Move} {i : Nat} {task : Task} (hStep : Step cfg s m s')
    (hAbout : m.index? = some i ∨ m = .fire) (hTask : s.tasks[i]? = some task)
    (hUnfired : s'.fired = false) :
    ∃ e, m.index? = some i ∧ task.effect? cfg false m = some e ∧ e.fires = false ∧
      s' = s.apply i task e := by
  cases hStep with
  | acquire | spawn | close | see | finish => simp [Move.index?] at hAbout
  | fire => cases hUnfired
  | @task _ j u e hIndex hSome hEffect =>
    have hSame : m.index? = some i := by
      refine hAbout.resolve_right ?_
      rintro rfl
      cases hIndex
    obtain rfl : j = i := Option.some.inj (hIndex.symm.trans hSame)
    obtain rfl : u = task := Option.some.inj (hSome.symm.trans hTask)
    simp only [State.apply_fired, Bool.or_eq_false_iff] at hUnfired
    rw [hUnfired.1] at hEffect
    exact ⟨e, hIndex, hEffect, hUnfired.2, rfl⟩

/-- After a move that does not fire the token, the task that made it may be runnable again; for the
others nothing changes. -/
theorem schedule_of_move {r : Runnable} {rest : List Runnable} (hReady : t.ready = r :: rest)
    (hKept : s'.fired = t.state.fired) :
    let t' := { t with
      ready := if goesOn s' r.index then ⟨r.index, false⟩ :: rest else rest }.after s'
    t'.waiting = t.waiting ∧ (∀ other ∈ t'.ready, other = ⟨r.index, false⟩ ∨ other ∈ rest) ∧
      t'.comingBack.Sublist t.comingBack := by
  intro t'
  obtain ⟨hNext, hWaiting⟩ := after_of_kept (t := { t with
    ready := if goesOn s' r.index then ⟨r.index, false⟩ :: rest else rest }) hKept
  refine ⟨hWaiting, fun other hMem => ?_, ?_⟩
  · rw [hNext] at hMem
    dsimp only at hMem
    split at hMem
    · exact List.mem_cons.mp hMem
    · exact .inr hMem
  · rw [comingBack, comingBack, hNext, hWaiting, hReady]
    refine List.Sublist.append ?_ (List.Sublist.refl _)
    dsimp only
    split
    · exact List.Sublist.refl _
    · exact List.sublist_cons_self _ _

/-- A move takes a task to its next call, or to its end at the time it should. -/
theorem move (h : Clocked cfg w queries duration t) (hScheduled : Scheduled cfg w queries t)
    (hFixed : ∀ i q, queries[i]? = some q → ∀ start,
      w.duration cfg.defaultService q start = duration i)
    {r : Runnable} {rest : List Runnable} (hReady : t.ready = r :: rest) {task : Task}
    {m : Move} {s' : State}
    (hDone : r.replied = true ∨ t.state.fired = true ∨ callDelay cfg w t.state r.index = 0)
    (hTask : t.state.tasks[r.index]? = some task)
    (hMove : moveOf cfg w t.state t.now r = some m)
    (hAbout : m.index? = some r.index ∨ m = .fire) (hStep : Step cfg t.state m s')
    (hUnfired : s'.fired = false)
    (hStarts : t.state.hasStartedAt r.index = false → s'.hasStartedAt r.index = true →
      HoldsFrom cfg w queries (fun s => s.hasStartedAt r.index) t.now)
    (hEnds : t.state.hasEndedAt r.index = false → s'.hasEndedAt r.index = true →
      HoldsFrom cfg w queries (fun s => s.hasEndedAt r.index) t.now) :
    Clocked cfg w queries duration ({ t with
      ready := if goesOn s' r.index then ⟨r.index, false⟩ :: rest else rest }.after s') := by
  have hOldUnfired : t.state.fired = false := by
    refine eq_false_of_ne_true fun hFired => ?_
    rw [State.fired_step hStep hFired] at hUnfired
    cases hUnfired
  obtain ⟨e, hIndex, hEffect, hKept, hApply⟩ := exists_effect hStep hAbout hTask hUnfired
  have hUnended : task.hasEnded = false := Task.hasEnded_of_effect? hEffect
  have hlt : r.index < t.state.tasks.length := (List.getElem?_eq_some_iff.mp hTask).1
  have hSelf : s'.tasks[r.index]? = some ⟨task.query, e.phase⟩ := by simp [hApply, hlt]
  have hOther {i : Nat} (hNe : i ≠ r.index) : s'.tasks[i]? = t.state.tasks[i]? := by
    rw [hApply, State.apply_tasks, List.getElem?_set_ne hNe.symm]
  -- What was left before the move is the next call and what is left after it.
  obtain ⟨start, hHolds, hSum, hNow⟩ := h.exists_start hScheduled hFixed hReady hTask hUnended
    (hDone.imp_right fun hOr => hOr.resolve_left (by simp [hOldUnfired])) fun hSpawned => by
      refine hStarts ?_ ?_
      · simp [State.hasStartedAt, hTask, hSpawned]
      · exact State.hasStartedAt_eq_true.mpr ⟨_, hSelf, Task.phase_ne_spawned hIndex hEffect⟩
  have hLeft := delays_rest
    (allowsTask_of_moveOf hTask hOldUnfired hMove hEffect hKept hNow) hIndex hEffect
  obtain ⟨hWaiting, hReady', hSub⟩ := schedule_of_move hReady (hUnfired.trans hOldUnfired.symm)
  -- The other tasks that the schedule will come back to are other ones.
  have hNodup := h.nodup
  rw [comingBack, hReady, List.map_cons, List.cons_append, List.nodup_cons, List.mem_append,
    not_or] at hNodup
  obtain ⟨⟨hNotReady, hNotWaiting⟩, -⟩ := hNodup
  refine ⟨h.nodup.sublist hSub, fun i hMem => ?_, fun other hMem => ?_, ?_, ?_⟩
  · rw [after_state, hApply, State.apply_tasks, List.length_set]
    exact h.known i (hSub.subset hMem)
  · rw [after_state, after_now]
    rcases hReady' other hMem with rfl | hOld
    · intro task' hTask' hUnended' hStarted'
      obtain rfl := Option.some.inj (hSelf.symm.trans hTask')
      refine ⟨start, hHolds, ?_⟩
      rw [if_neg Bool.false_ne_true, callDelay_eq hSelf]
      dsimp only
      omega
    · have hNe : other.index ≠ r.index := fun hEq =>
        hNotReady (hEq ▸ List.mem_map_of_mem hOld)
      rw [callDelay_congr (hOther hNe)]
      exact due_congr (hOther hNe) (h.runnable other (hReady ▸ List.mem_cons_of_mem r hOld))
  · rw [hWaiting, after_state]
    intro c hMem
    have hNe : c.index ≠ r.index := fun hEq => hNotWaiting (hEq ▸ List.mem_map_of_mem hMem)
    exact due_congr (hOther hNe) (h.underway c hMem)
  · rw [after_state]
    intro i hEnded
    by_cases hSame : i = r.index
    · subst hSame
      refine ⟨start, hHolds, ?_⟩
      have hHere := hEnds (State.hasEndedAt_of_unended hTask hUnended) hEnded
      have hNone : Task.callDelay cfg w r.index ⟨task.query, e.phase⟩ +
          w.delays ((w.answers start).rest cfg r.index ⟨task.query, e.phase⟩) = 0 := by
        obtain ⟨u, hTask', hOver⟩ := State.hasEndedAt_eq_true.mp hEnded
        obtain rfl := Option.some.inj (hSelf.symm.trans hTask')
        exact delays_of_hasEnded hOver
      rwa [show start + duration r.index = t.now by omega]
    · refine h.ended i ?_
      rwa [State.hasEndedAt, ← hOther hSame]

theorem init (cfg : Settings) (w : World) (queries : List Query) (duration : Nat → Nat)
    (fired : Bool) : Clocked cfg w queries duration (Timeline.init cfg queries fired) where
  nodup := List.nodup_nil
  known := nofun
  runnable := nofun
  underway := nofun
  ended := fun i hEnded => by simp [Timeline.init, State.init, State.hasEndedAt] at hEnded

/-- A step that does not fire the token keeps the invariant. -/
theorem next (h : Clocked cfg w queries duration t) (hScheduled : Scheduled cfg w queries t)
    (hFixed : ∀ i q, queries[i]? = some q → ∀ start,
      w.duration cfg.defaultService q start = duration i)
    (hNext : next? cfg w t = some t') (hUnfired : t'.state.fired = false)
    (hStarts : ∀ i, t.state.hasStartedAt i = false → t'.state.hasStartedAt i = true →
      HoldsFrom cfg w queries (fun s => s.hasStartedAt i) t'.now)
    (hEnds : ∀ i, t.state.hasEndedAt i = false → t'.state.hasEndedAt i = true →
      HoldsFrom cfg w queries (fun s => s.hasEndedAt i) t'.now) :
    Clocked cfg w queries duration t' := by
  by_cases hTasks : ∃ r rest, t.turn = .tasks ∧ t.ready = r :: rest
  · obtain ⟨r, rest, hTurn, hReady⟩ := hTasks
    cases TaskTurn.of_next? hScheduled.stable hTurn hReady hNext with
    | wait hReplied => exact h.wait hReady hReplied
    | drop => exact h.drop hReady
    | move hDone hTask hMove hAbout hStep =>
      simp only [after_state, after_now] at hUnfired hStarts hEnds
      exact h.move hScheduled hFixed hReady hDone hTask hMove hAbout hStep hUnfired
        (hStarts r.index) (hEnds r.index)
  · cases Tick.of_next? hScheduled.stable hNext with
    | spawn hTurn hStep => exact h.spawn hStep
    | @own m s' hTurn hMem hMove hStep =>
      have hSame : s'.tasks = t.state.tasks := by
        obtain ⟨hIndex, -⟩ := index?_of_mem_runMoves hMem
        cases hStep with
        | spawn => exact absurd rfl hMove
        | task hSome => simp [hSome] at hIndex
        | _ => rfl
      obtain ⟨hReady, hWaiting⟩ := after_of_kept (fired_of_mem_runMoves hMem hStep)
      exact h.keep (by rw [after_state, hSame]) after_now hReady hWaiting
    | yield | resume => exact h.keep rfl rfl rfl rfl
    | wait hTurn hReady | drop hTurn hReady | move hTurn hReady =>
      exact absurd ⟨_, _, hTurn, hReady⟩ hTasks
    | @pass time hTurn hReady hStuck hTime =>
      refine h.pass hReady hTime ?_
      cases hFired : t.state.fired with
      | true => exact .inl rfl
      | false =>
        refine .inr fun hFire => ?_
        rw [advance_of_fire hFired hFire, after_state] at hUnfired
        cases hUnfired

/-- **In a run whose token does not fire, tasks keep to the clock.** -/
theorem of_trace (hFixed : ∀ i q, queries[i]? = some q → ∀ start,
      w.duration cfg.defaultService q start = duration i)
    (hUnfired : ∀ n, (trace cfg w queries n).state.fired = false) (n : Nat) :
    Clocked cfg w queries duration (trace cfg w queries n) := by
  refine trace_induction (P := Clocked cfg w queries duration) (Nat.zero_le n) ?_ (init ..)
  intro k h hNext
  exact h.next (scheduled_trace cfg w queries k) hFixed hNext (hUnfired (k + 1))
    (fun i => holdsFrom_of_change (kept_hasStartedAt i))
    (fun i => holdsFrom_of_change (kept_hasEndedAt i))

end Clocked

end SqlMetrics.Collector
