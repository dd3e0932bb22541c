import SqlMetrics.Proofs.Collector.Accounting
import SqlMetrics.Proofs.Collector.Duration

/-!
# Runs come to an end

A run waits for nothing but the calls that its tasks have begun.  If each of them comes to
something, or the token fires, the run returns.

- **Outstanding calls**: `State.Outstanding` names what the tasks wait for.  It has been begun
  (`outstanding_begun`), and whatever it comes to, the machine can go on
  (`exists_step_of_resolves`).
- **Schedules**: a `Schedule` chooses the next move from those made so far.  A live one stops only
  where nothing can go on and nothing is outstanding, and then the run has returned
  (`Schedule.Live.returned`).
- **No stall**: `run_never_stalls` puts them together for every limit, zero and huge ones included.
-/

namespace SqlMetrics.Collector

/-! ## Outstanding calls -/

/-- What the task of this index waits for outside. -/
def Task.awaited? (cfg : Settings) (index : Nat) (t : Task) : Option External :=
  match t.phase with
  | .executing (.evaluating _ _ command _) => some (.command index command)
  | .executing (.querying _ params) => some (.call index ⟨t.query.sql, params⟩)
  | .exporting points => some (.exportBegun index (t.query.serviceOr cfg.defaultService) points)
  | .spawned | .executing (.finished _) | .ended _ => none

/-- Whether a move brings what was begun outside to an end: by an answer, a failure or a crash. -/
def Move.Resolves : External → Move → Prop
  | .command index _, .commandEnds i _ => i = index
  | .call index _, .sourceReplies i _ => i = index
  | .exportBegun index _ _, .exportReplies i _ => i = index
  | _, _ => False

namespace State

/-- Whether a task waits for this. -/
def Outstanding (cfg : Settings) (s : State) (x : External) : Prop :=
  ∃ index, ∃ t : Task, s.tasks[index]? = some t ∧ t.awaited? cfg index = some x

/-- Whether a run can do nothing more by itself, whatever the clock reads. -/
def Quiet (cfg : Settings) (s : State) : Prop :=
  ∀ now (m : Move), m.IsOwn now → s.step? cfg m = none

/-- Whether a run can do nothing more by itself and waits for nothing. -/
def Settled (cfg : Settings) (s : State) : Prop :=
  s.Quiet cfg ∧ (s.fired = false → ∀ x, ¬ s.Outstanding cfg x)

variable {cfg : Settings} {queries : List Query} {fired : Bool} {moves : List Move} {s : State}

theorem Quiet.not_step (h : s.Quiet cfg) {now : Int64} {m : Move} (hOwn : m.IsOwn now)
    {s' : State} : ¬ Step cfg s m s' := by
  intro hStep
  have hNone := h now m hOwn
  rw [hStep.step?] at hNone
  cases hNone

theorem index_of_awaited? {index : Nat} {t : Task} {x : External}
    (h : t.awaited? cfg index = some x) : x.index = index := by
  unfold Task.awaited? at h
  split at h <;> cases h <;> rfl

/-- A task that waits for something is not over. -/
theorem hasEnded_of_awaited? {index : Nat} {t : Task} {x : External}
    (h : t.awaited? cfg index = some x) : t.hasEnded = false := by
  obtain ⟨q, phase⟩ := t
  cases phase with
  | ended error => cases h
  | spawned | executing | exporting => rfl

/-- What a task waits for is the last thing that its query has begun. -/
theorem awaited_begun (hRun : (State.init cfg queries fired).run? cfg moves = some s) :
    ∀ i t, s.tasks[i]? = some t →
      ∀ x, t.awaited? cfg i = some x → (s.externalsOf i).getLast? = some x := by
  -- On the moves of the run: a move of a task that begins something leaves the task waiting for it.
  refine run?_induction (P := fun s => ∀ i t, s.tasks[i]? = some t →
    ∀ x, t.awaited? cfg i = some x → (s.externalsOf i).getLast? = some x) ?_ hRun ?_
  · intro s m s' hOld hStep
    cases hStep with
    | spawn =>
      intro i t hTask
      rcases getElem?_append_spawned hTask with ⟨-, rfl⟩ | hBefore
      · exact nofun
      · exact hOld i t hBefore
    | @task _ index t e hIndex hTask hEffect =>
      refine forall_task_apply
        (P := fun i t done => ∀ x, t.awaited? cfg i = some x → done.getLast? = some x)
        hIndex hTask hEffect hOld ?_
      intro x hAwaited
      cases Change.of_effect? hIndex hEffect with
      | command | call | exporting =>
        cases hAwaited
        simp
      | interrupted =>
        rw [List.append_nil]
        exact hOld index t hTask x hAwaited
      | delivered | failed => cases hAwaited
    | _ => exact hOld
  · intro i t hTask
    simp [State.init] at hTask

theorem outstanding_begun (hRun : (State.init cfg queries fired).run? cfg moves = some s)
    {x : External} (h : s.Outstanding cfg x) : (s.externalsOf x.index).getLast? = some x := by
  obtain ⟨index, t, hTask, hAwaited⟩ := h
  rw [index_of_awaited? hAwaited]
  exact awaited_begun hRun index t hTask x hAwaited

/-- Until the token fires, whatever an outstanding call comes to is a possible move. -/
theorem exists_step_of_resolves (hUnfired : s.fired = false) {x : External}
    (h : s.Outstanding cfg x) {m : Move} (hResolves : m.Resolves x) :
    ∃ s', s.step? cfg m = some s' := by
  obtain ⟨index, ⟨q, phase⟩, hTask, hAwaited⟩ := h
  have hEffect : m.index? = some index ∧
      ∃ e, Task.effect? cfg s.fired ⟨q, phase⟩ m = some e := by
    rw [hUnfired]
    unfold Task.awaited? at hAwaited
    split at hAwaited
    case h_1 | h_2 | h_3 =>
      rename_i hPhase
      obtain rfl := hPhase
      cases hAwaited
      cases m <;> simp only [Move.Resolves] at hResolves
      subst hResolves
      exact ⟨rfl, _, rfl⟩
    all_goals cases hAwaited
  obtain ⟨hIndex, e, hSome⟩ := hEffect
  exact ⟨_, (Step.task hIndex hTask hSome).step?⟩

theorem exists_outstanding (hStable : s.Stable) {t : Task} (hMem : t ∈ s.tasks)
    (hWaits : Timeline.isWaiting t = true) : ∃ x, s.Outstanding cfg x := by
  obtain ⟨index, hTask⟩ := List.mem_iff_getElem?.mp hMem
  have hAwaited : ∃ x, t.awaited? cfg index = some x := by
    unfold Task.awaited?
    rcases Task.waiting_cases hWaits (hStable t hMem) with
      ⟨now, values, command, rest, hPhase⟩ | ⟨now, params, hPhase⟩ | ⟨points, hPhase⟩
    all_goals exact ⟨_, by rw [hPhase]⟩
  obtain ⟨x, hSome⟩ := hAwaited
  exact ⟨x, index, t, hTask, hSome⟩

/-- **Until it has returned, a run is not stuck**: it can go on by itself whatever the clock reads,
or a call is outstanding. -/
theorem not_stuck (hRun : (State.init cfg queries fired).run? cfg moves = some s)
    (hReturned : s.returned = none) :
    (∀ now, ∃ m s', m.IsOwn now ∧ s.step? cfg m = some s') ∨
      (s.fired = false ∧ ∃ x, s.Outstanding cfg x) := by
  have hProgress := exists_step (Admitting.of_run? hRun) hReturned
  by_cases hWaits : s.fired = false ∧ ∃ t ∈ s.tasks, Timeline.isWaiting t = true
  · obtain ⟨hUnfired, t, hMem, hWaiting⟩ := hWaits
    exact .inr ⟨hUnfired, exists_outstanding (stable_of_run? hRun) hMem hWaiting⟩
  · refine .inl fun now => ?_
    obtain ⟨m, s', hOwn, hStep⟩ := (hProgress now).resolve_right hWaits
    exact ⟨m, s', hOwn, hStep.step?⟩

theorem all_ended_of_returned (hRun : (State.init cfg queries fired).run? cfg moves = some s)
    (hReturned : s.returned.isSome = true) : s.tasks.all Task.hasEnded = true := by
  obtain ⟨r, hSome⟩ := Option.isSome_iff_exists.mp hReturned
  exact (Returned.of_run? hRun r hSome).2.2.1

/-- A run that has returned does nothing more. -/
theorem quiet_of_returned (hRun : (State.init cfg queries fired).run? cfg moves = some s)
    (hReturned : s.returned.isSome = true) : s.Quiet cfg := by
  obtain ⟨r, hSome⟩ := Option.isSome_iff_exists.mp hReturned
  obtain ⟨hClosed, hUnseen, hEnded, -⟩ := Returned.of_run? hRun r hSome
  intro now m hOwn
  refine Option.eq_none_iff_forall_not_mem.mpr fun s' hMem => ?_
  cases State.step?_eq_some_iff.mp hMem with
  | acquire hSeeking | close hSeeking => simp [hClosed] at hSeeking
  | spawn hHolding => simp [hClosed] at hHolding
  | fire => exact hOwn
  | task hIndex hTask hEffect =>
    -- With all tasks over, none can make a move.
    have hOver := List.all_eq_true.mp hEnded _ (List.mem_of_getElem? hTask)
    rw [Task.hasEnded_of_effect? hEffect] at hOver
    cases hOver
  | see _ hIndex => simp [hUnseen] at hIndex
  | finish _ _ _ hNone => simp [hNone] at hReturned

/-- **A run is settled when it has returned, and not before.** -/
theorem settled_iff_returned (hRun : (State.init cfg queries fired).run? cfg moves = some s) :
    s.Settled cfg ↔ s.returned.isSome = true := by
  constructor
  · intro hSettled
    cases hReturned : s.returned with
    | some r => rfl
    | none =>
      exfalso
      rcases not_stuck hRun hReturned with hOwn | ⟨hUnfired, x, hOutstanding⟩
      · obtain ⟨m, s', hIsOwn, hStep⟩ := hOwn 0
        exact hSettled.1.not_step hIsOwn (step?_eq_some_iff.mp hStep)
      · exact hSettled.2 hUnfired x hOutstanding
  · intro hReturned
    refine ⟨quiet_of_returned hRun hReturned, fun _ x hOutstanding => ?_⟩
    obtain ⟨index, t, hTask, hAwaited⟩ := hOutstanding
    have hOver := List.all_eq_true.mp (all_ended_of_returned hRun hReturned) t
      (List.mem_of_getElem? hTask)
    rw [hasEnded_of_awaited? hAwaited] at hOver
    cases hOver

end State

/-! ## Schedules -/

/-- A schedule chooses the next move from the moves made so far; `none` is to wait for ever. -/
abbrev Schedule := List Move → Option Move

namespace Schedule

/-- The moves after so many choices. -/
def moves (choose : Schedule) : Nat → List Move
  | 0 => []
  | n + 1 => choose.moves n ++ (choose (choose.moves n)).toList

/-- What makes a schedule live:
1. it chooses only moves that are possible;
2. it stops only where the run can do nothing by itself and no call is outstanding, so every call
   that was begun comes to something, unless the token fires. -/
structure Live (choose : Schedule) (cfg : Settings) (start : State) : Prop where
  possible : ∀ n s m, start.run? cfg (choose.moves n) = some s → choose (choose.moves n) = some m →
    (s.step? cfg m).isSome = true
  settled : ∀ n s, start.run? cfg (choose.moves n) = some s → choose (choose.moves n) = none →
    s.Settled cfg

variable {choose : Schedule} {cfg : Settings} {start : State}

/-- A live schedule makes a move with every choice, until it stops. -/
theorem Live.exists_run (h : choose.Live cfg start) (n : Nat) :
    ∃ s, start.run? cfg (choose.moves n) = some s ∧
      ((choose.moves n).length = n ∨ choose (choose.moves n) = none) := by
  induction n with
  | zero => exact ⟨start, rfl, .inl rfl⟩
  | succ n ih =>
    obtain ⟨s, hRun, hLength⟩ := ih
    cases hChoice : choose (choose.moves n) with
    | none =>
      have hSame : choose.moves (n + 1) = choose.moves n := by simp [moves, hChoice]
      rw [hSame]
      exact ⟨s, hRun, .inr hChoice⟩
    | some m =>
      obtain ⟨s', hStep⟩ := Option.isSome_iff_exists.mp (h.possible n s m hRun hChoice)
      have hMore : choose.moves (n + 1) = choose.moves n ++ [m] := by simp [moves, hChoice]
      have hOne : s.run? cfg [m] = some s' :=
        State.run?_singleton (State.step?_eq_some_iff.mp hStep)
      refine ⟨s', hMore ▸ State.run?_trans hRun hOne, .inl ?_⟩
      have hAll : (choose.moves n).length = n := hLength.resolve_right (by simp [hChoice])
      simp [hMore, hAll]

/-- **Under a live schedule a run returns**, since there are only so many moves to choose. -/
theorem Live.returned {queries : List Query} {fired : Bool}
    (h : choose.Live cfg (State.init cfg queries fired)) :
    ∃ n s, (State.init cfg queries fired).run? cfg (choose.moves n) = some s ∧
      s.returned.isSome = true := by
  -- With one choice more than there are moves to make, the schedule has stopped.
  let n := (State.init cfg queries fired).remaining + 1
  obtain ⟨s, hRun, hLength⟩ := h.exists_run n
  have hMost : (choose.moves n).length + s.remaining ≤ (State.init cfg queries fired).remaining :=
    State.remaining_run? hRun
  have hStopped : choose (choose.moves n) = none := hLength.resolve_left (by omega)
  exact ⟨n, s, hRun, (State.settled_iff_returned hRun).mp (h.settled n s hRun hStopped)⟩

/-! ### Schedules by a list -/

/-- The schedule that makes the moves of a list, in order. -/
def ofMoves (script : List Move) : Schedule :=
  fun done => script[done.length]?

theorem moves_ofMoves (script : List Move) (n : Nat) :
    (ofMoves script).moves n = script.take n := by
  induction n with
  | zero => rfl
  | succ n ih =>
    rw [moves, ih, List.take_add_one, ofMoves, List.length_take]
    rcases Nat.le_total n script.length with hWithin | hBeyond
    · rw [Nat.min_eq_left hWithin]
    · rw [Nat.min_eq_right hBeyond, List.getElem?_eq_none hBeyond,
        List.getElem?_eq_none (Nat.le_refl _)]

/-- The schedule of a run that has returned is live. -/
theorem live_ofMoves {queries : List Query} {fired : Bool} {script : List Move} {s : State}
    (hRun : (State.init cfg queries fired).run? cfg script = some s)
    (hReturned : s.returned.isSome = true) :
    (ofMoves script).Live cfg (State.init cfg queries fired) where
  possible := by
    intro n s₁ m hBefore hChoice
    rw [moves_ofMoves] at hBefore hChoice
    have hLess : n < script.length := by
      have hlt : (script.take n).length < script.length := (List.getElem?_eq_some_iff.mp hChoice).1
      rw [List.length_take] at hlt
      omega
    have hMove : script[n]? = some m := by
      rw [ofMoves, List.length_take, Nat.min_eq_left (Nat.le_of_lt hLess)] at hChoice
      exact hChoice
    -- What is left of the run begins with this move.
    have hSplit : script = script.take n ++ m :: script.drop (n + 1) := by
      rw [← (List.getElem?_eq_some_iff.mp hMove).2, List.getElem_cons_drop, List.take_append_drop]
    rw [hSplit, State.run?_append, hBefore] at hRun
    obtain ⟨s₂, hStep, -⟩ := State.run?_cons_eq_some_iff.mp hRun
    rw [hStep.step?]
    rfl
  settled := by
    intro n s₁ hBefore hChoice
    rw [moves_ofMoves] at hBefore hChoice
    have hAll : script.take n = script := by
      refine List.take_of_length_le ?_
      have hle := List.getElem?_eq_none_iff.mp hChoice
      rw [List.length_take] at hle
      omega
    rw [hAll, hRun] at hBefore
    cases hBefore
    exact (State.settled_iff_returned hRun).mpr hReturned

end Schedule

/-! ## No stall -/

/-- **No run stalls**, whatever the limit and the queries are.
1. Every run makes a bounded number of moves.  Until it has returned, it can go on by itself
   whatever the clock reads, or a call that an admitted query has begun is outstanding; and whatever
   this call comes to, the run can go on.  When it has returned, all its tasks have ended.
2. Every schedule that leaves no call without an outcome, unless the token fires, makes it return.
3. So it does in every world of virtual time. -/
theorem run_never_stalls (cfg : Settings) (queries : List Query) (fired : Bool) :
    let start := State.init cfg queries fired
    (∀ moves s, start.run? cfg moves = some s →
      moves.length ≤ start.remaining ∧
      (s.returned = none →
        (∀ now, ∃ m, m.IsOwn now ∧ (s.step? cfg m).isSome = true) ∨
          (s.fired = false ∧ ∃ x, s.Outstanding cfg x ∧
            (s.externalsOf x.index).getLast? = some x ∧
            ∀ m : Move, m.Resolves x → (s.step? cfg m).isSome = true)) ∧
      (s.returned.isSome = true → s.tasks.all Task.hasEnded = true)) ∧
    (∀ choose : Schedule, choose.Live cfg start →
      ∃ n s, start.run? cfg (choose.moves n) = some s ∧ s.returned.isSome = true ∧
        s.tasks.all Task.hasEnded = true) ∧
    ∀ w : World, (w.fireAt == some 0) = fired →
      (Timeline.run cfg w queries).state.returned.isSome = true ∧
        (Timeline.run cfg w queries).state.tasks.all Task.hasEnded = true := by
  refine ⟨fun moves s hRun => ⟨?bound, ?stuck, State.all_ended_of_returned hRun⟩, ?schedules,
    ?worlds⟩
  case bound =>
    have hLength := State.remaining_run? hRun
    omega
  case stuck =>
    intro hReturned
    rcases State.not_stuck hRun hReturned with hOwn | ⟨hUnfired, x, hOutstanding⟩
    · refine .inl fun now => ?_
      obtain ⟨m, s', hIsOwn, hStep⟩ := hOwn now
      exact ⟨m, hIsOwn, by simp [hStep]⟩
    · refine .inr ⟨hUnfired, x, hOutstanding, State.outstanding_begun hRun hOutstanding, ?_⟩
      intro m hResolves
      obtain ⟨s', hStep⟩ := State.exists_step_of_resolves hUnfired hOutstanding hResolves
      simp [hStep]
  case schedules =>
    intro choose hLive
    obtain ⟨n, s, hRun, hReturned⟩ := hLive.returned
    exact ⟨n, s, hRun, hReturned, State.all_ended_of_returned hRun hReturned⟩
  case worlds =>
    rintro w rfl
    have hReturned := Timeline.returned_run cfg w queries
    obtain ⟨moves, hRun⟩ := (Scheduled.init.runFor (Timeline.stepBound queries)).reached
    exact ⟨hReturned, State.all_ended_of_returned hRun hReturned⟩

/-- With a limit of zero one query is admitted at a time: the second one starts when the first has
crashed, and its export fails. -/
theorem run_never_stalls_limit_zero :
    let start := State.init ⟨0, "web"⟩ [{}, {}] false
    let script : List Move :=
      [.acquire, .spawn, .start 0 0, .sourceReplies 0 (.crashed "overflow" false), .acquire, .spawn, .close,
        .start 1 0, .sourceReplies 1 (.answered (.ok []) false),
        .exportReplies 1 (.answered (.error (.status 503 "")) false), .see, .see, .finish]
    (Schedule.ofMoves script).Live ⟨0, "web"⟩ start ∧
      (∃ n s, start.run? ⟨0, "web"⟩ ((Schedule.ofMoves script).moves n) = some s ∧
        s.returned.isSome = true ∧ s.tasks.all Task.hasEnded = true) ∧
      script.length ≤ start.remaining := by
  intro start script
  obtain ⟨s, hRun, hReturned⟩ : ∃ s, start.run? ⟨0, "web"⟩ script = some s ∧
      s.returned.isSome = true := ⟨_, rfl, rfl⟩
  have hLive := Schedule.live_ofMoves hRun hReturned
  obtain ⟨hMoves, hSchedules, -⟩ := run_never_stalls ⟨0, "web"⟩ [{}, {}] false
  exact ⟨hLive, hSchedules _ hLive, (hMoves script s hRun).1⟩

end SqlMetrics.Collector
