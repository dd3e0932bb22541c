import Mathlib.Data.Nat.Find
import SqlMetrics.Proofs.Collector.Clock

/-!
# More permits, earlier ends

With a higher limit and the same durations no query starts later, none ends later, and the run
returns no later.

- **Courses from timelines**: the last timeline of each moment makes a `Course` of a run in virtual
  time in which the token does not fire (`Timeline.course`).
- **Comparison**: `higher_limit_never_slower` compares any two courses, and with their times the
  runs of every world.
-/

namespace SqlMetrics.Collector

namespace Timeline

variable {cfg : Settings} {w : World} {queries : List Query} {duration : Nat → Nat}

/-! ## The last timeline of a moment -/

/-- How many steps a run has made when a moment is over. -/
def stepsBy (cfg : Settings) (w : World) (queries : List Query) (time : Nat) : Nat :=
  Nat.findGreatest (fun n => (trace cfg w queries n).now ≤ time) (stepBound queries)

/-- The state of a run when a moment is over. -/
def stateBy (cfg : Settings) (w : World) (queries : List Query) (time : Nat) : State :=
  (trace cfg w queries (stepsBy cfg w queries time)).state

theorem now_stepsBy_le (time : Nat) :
    (trace cfg w queries (stepsBy cfg w queries time)).now ≤ time :=
  Nat.findGreatest_spec (P := fun n => (trace cfg w queries n).now ≤ time) (Nat.zero_le _)
    (Nat.zero_le time)

theorem lt_now_of_stepsBy_lt {time n : Nat} (h : stepsBy cfg w queries time < n)
    (hWithin : n ≤ stepBound queries) : time < (trace cfg w queries n).now :=
  Nat.lt_of_not_le
    (Nat.findGreatest_is_greatest (P := fun n => (trace cfg w queries n).now ≤ time) h hWithin)

theorem stepsBy_mono {time later : Nat} (h : time ≤ later) :
    stepsBy cfg w queries time ≤ stepsBy cfg w queries later :=
  Nat.findGreatest_mono_left (fun _ hBy => Nat.le_trans hBy h) _

/-- What is so in a run by some time is so when this moment is over. -/
theorem stateBy_iff {p : State → Bool} (hKept : Kept cfg p) (time : Nat) :
    p (stateBy cfg w queries time) = true ↔
      ∃ n, (trace cfg w queries n).now ≤ time ∧ p (trace cfg w queries n).state = true := by
  refine ⟨fun h => ⟨_, now_stepsBy_le time, h⟩, fun hSome => ?_⟩
  obtain ⟨n, hTime, hp⟩ := hSome
  rcases Nat.le_total n (stepBound queries) with hWithin | hBeyond
  · exact hKept.trace (Nat.le_findGreatest hWithin hTime) hp
  · -- By then the run has come to its end.
    have hEnd : trace cfg w queries n = trace cfg w queries (stepBound queries) := by
      rw [trace_of_bound_le hBeyond, trace_of_bound_le (Nat.le_refl _)]
    rw [hEnd] at hTime hp
    exact hKept.trace (Nat.le_findGreatest (Nat.le_refl _) hTime) hp

/-- Time moves on only when the run can do nothing by itself. -/
theorem Tick.quiet {t t' : Timeline} (h : Tick cfg w t t') (hScheduled : Scheduled cfg w queries t)
    (hUnfired : t.state.fired = false) (hLater : t.now < t'.now) : t.state.Quiet cfg := by
  cases h with
  | spawn | own | move => simp at hLater
  | yield | wait | drop | resume => exact absurd hLater (Nat.lt_irrefl _)
  | @pass time hTurn hReady hStuck hTime =>
    intro now m hOwn
    refine Option.eq_none_iff_forall_not_mem.mpr fun s' hMem => ?_
    have hStep : Step cfg t.state m s' := State.step?_eq_some_iff.mp hMem
    have hNot (hRun : m ∈ runMoves) : False := not_step_of_runMove? hStuck hRun hStep
    cases hStep with
    | acquire | spawn | close | see | finish => exact hNot (by simp [runMoves])
    | fire => exact hOwn
    | @task _ i task e hIndex hTask hEffect =>
      -- With no task runnable, each one waits for a call.
      have hWaits : isWaiting task = true := by
        rcases hScheduled.tracked i task hTask (Task.hasEnded_of_effect? hEffect) with
          hRunnable | ⟨hWaits, -⟩
        · simp [hReady] at hRunnable
        · exact hWaits
      cases TaskMove.of_effect? hEffect with
      | start _ _ hPhase => simp [isWaiting, hPhase] at hWaits
      | wake _ hFired => simp [hUnfired] at hFired
      | commandEnds | sourceReplies | exportReplies => exact hOwn

/-- When a moment is over, a run has done what it can do by itself. -/
theorem quiet_stateBy (hUnfired : ∀ n, (trace cfg w queries n).state.fired = false) (time : Nat) :
    (stateBy cfg w queries time).Quiet cfg := by
  generalize hSteps : stepsBy cfg w queries time = n
  have hScheduled : Scheduled cfg w queries (trace cfg w queries n) :=
    scheduled_trace cfg w queries n
  rw [stateBy, hSteps]
  cases hNext : next? cfg w (trace cfg w queries n) with
  | none =>
    obtain ⟨moves, hRun⟩ := hScheduled.reached
    exact ((State.settled_iff_returned hRun).mpr (returned_of_next?_eq_none hScheduled hNext)).1
  | some t =>
    -- The run goes on, and with its next step this moment is over.
    obtain rfl : t = trace cfg w queries (n + 1) := by
      rcases trace_succ cfg w queries n with hMore | ⟨hNone, -⟩
      · exact Option.some.inj (hNext.symm.trans hMore)
      · rw [hNone] at hNext
        cases hNext
    have hWithin : n < stepBound queries := by
      refine Nat.lt_of_not_le fun hBeyond => ?_
      obtain ⟨more, rfl⟩ := Nat.exists_eq_add_of_le hBeyond
      have hStuck := next?_runFor_eq_none (.init : Scheduled cfg w queries _)
        (potential_init_le queries _)
      rw [trace, runFor_add, runFor_of_next?_eq_none hStuck, hStuck] at hNext
      cases hNext
    have hLate : time < (trace cfg w queries (n + 1)).now :=
      lt_now_of_stepsBy_lt (Nat.lt_succ_of_le (Nat.le_of_eq hSteps)) hWithin
    have hNow : (trace cfg w queries n).now ≤ time := hSteps ▸ now_stepsBy_le time
    exact (Tick.of_next? hScheduled.stable hNext).quiet hScheduled (hUnfired n)
      (Nat.lt_of_le_of_lt hNow hLate)

/-- What is so in one run whenever it is so in another has begun no later there. -/
theorem le_of_holdsFrom {cfg' : Settings} {p : State → Bool} (hKept : Kept cfg p)
    (hKept' : Kept cfg' p) {start start' : Nat} (hFrom : HoldsFrom cfg w queries p start)
    (hFrom' : HoldsFrom cfg' w queries p start')
    (h : ∀ time, p (stateBy cfg w queries time) = true → p (stateBy cfg' w queries time) = true) :
    start' ≤ start := by
  have hThen := (stateBy_iff hKept start).mpr ((hFrom start).mpr (Nat.le_refl _))
  exact (hFrom' start).mp ((stateBy_iff hKept' start).mp (h start hThen))

/-! ## Runs whose token does not fire -/

section Unfired

variable (hUnfired : (run cfg w queries).state.fired = false)

include hUnfired

theorem unfired_trace (n : Nat) : (trace cfg w queries n).state.fired = false := by
  refine eq_false_of_ne_true fun hFired => ?_
  -- The token would still have fired at the end.
  obtain ⟨moves, hRun⟩ := exists_run?_trace cfg w queries
    (Nat.le_add_right n (stepBound queries))
  have hEnd := State.fired_run? hRun hFired
  rw [trace_of_bound_le (Nat.le_add_left _ _), hUnfired] at hEnd
  cases hEnd

/-- Every query starts, and ends as long afterwards as it takes. -/
theorem exists_times (hFixed : ∀ i q, queries[i]? = some q → ∀ start,
      w.duration cfg.defaultService q start = duration i) {i : Nat} (hIndex : i < queries.length) :
    ∃ start, HoldsFrom cfg w queries (fun s => s.hasStartedAt i) start ∧
      HoldsFrom cfg w queries (fun s => s.hasEndedAt i) (start + duration i) := by
  have hEnd : trace cfg w queries (stepBound queries) = run cfg w queries := rfl
  have hClocked := Clocked.of_trace hFixed (unfired_trace hUnfired) (stepBound queries)
  rw [hEnd] at hClocked
  refine hClocked.ended i ?_
  obtain ⟨moves, hRun⟩ := (scheduled_trace cfg w queries (stepBound queries)).reached
  rw [hEnd] at hRun
  have hReturned := returned_run cfg w queries
  have hQuiet := ((State.settled_iff_returned hRun).mpr hReturned).1
  exact (hQuiet.returned_iff hRun hUnfired).mp hReturned i hIndex

/-- When a moment is over, the queries have ended that started as long before as they take. -/
theorem hasEndedAt_stateBy_iff (hFixed : ∀ i q, queries[i]? = some q → ∀ start,
      w.duration cfg.defaultService q start = duration i) (i time : Nat) :
    (stateBy cfg w queries time).hasEndedAt i = true ↔
      ∃ start, start + duration i ≤ time ∧ (stateBy cfg w queries start).hasStartedAt i = true := by
  rw [stateBy_iff (kept_hasEndedAt i)]
  simp only [stateBy_iff (kept_hasStartedAt i)]
  by_cases hIndex : i < queries.length
  · obtain ⟨start, hStart, hEnd⟩ := exists_times hUnfired hFixed hIndex
    rw [hEnd time]
    simp only [hStart _]
    constructor
    · intro hLong
      exact ⟨start, hLong, Nat.le_refl _⟩
    · rintro ⟨begun, hLong, hLate⟩
      omega
  · -- There is no such query, so no task of this index has started or ended.
    have hNone (n : Nat) : (trace cfg w queries n).state.tasks[i]? = none := by
      refine List.getElem?_eq_none (Nat.le_trans ?_ (Nat.le_of_not_lt hIndex))
      exact (scheduled_trace cfg w queries n).admitting.length_tasks_le
    simp [State.hasEndedAt, State.hasStartedAt, hNone]

end Unfired

/-- A run returns at its last time. -/
theorem holdsFrom_returned (cfg : Settings) (w : World) (queries : List Query) :
    HoldsFrom cfg w queries (fun s => s.returned.isSome) (run cfg w queries).now := by
  intro time
  constructor
  · rintro ⟨n, hTime, hReturned⟩
    -- A run that has returned goes no further.
    have hNone : next? cfg w (trace cfg w queries n) = none := by
      unfold next?
      rw [if_pos hReturned]
    have hEnd : trace cfg w queries n = run cfg w queries := by
      rw [← trace_of_bound_le (Nat.le_add_left (stepBound queries) n), trace, trace, runFor_add]
      exact (runFor_of_next?_eq_none hNone _).symm
    rwa [hEnd] at hTime
  · intro hLate
    exact ⟨stepBound queries, hLate, returned_run cfg w queries⟩

/-- The course of a run in virtual time. -/
def course (cfg : Settings) (w : World) (queries : List Query) (duration : Nat → Nat)
    (hFixed : ∀ i q, queries[i]? = some q → ∀ start,
      w.duration cfg.defaultService q start = duration i)
    (hUnfired : (run cfg w queries).state.fired = false) : Course cfg queries duration where
  state := stateBy cfg w queries
  begins := by
    have hStart : (trace cfg w queries 0).state = State.init cfg queries false := by
      have hFirst := unfired_trace hUnfired 0
      change State.init cfg queries (w.fireAt == some 0) = _
      rw [show (w.fireAt == some 0) = false from hFirst]
    rw [← hStart]
    exact exists_run?_trace cfg w queries (Nat.zero_le _)
  goesOn time := exists_run?_trace cfg w queries (stepsBy_mono (Nat.le_succ time))
  quiet := quiet_stateBy (unfired_trace hUnfired)
  unfired time := unfired_trace hUnfired _
  ended_iff := hasEndedAt_stateBy_iff hUnfired hFixed

end Timeline

/-! ## Comparison -/

theorem Settings.permits_le {service : String} {c c' : Nat} (h : c ≤ c') :
    (⟨c, service⟩ : Settings).permits ≤ (⟨c', service⟩ : Settings).permits := by
  unfold Settings.permits
  dsimp only
  omega

/-- **A higher limit never slows a run**, for tasks that take fixed times.
1. Of two courses of the same queries and durations, in the one with the higher limit a query has
   started whenever it has in the other, and ended whenever it has, and the run has returned
   whenever the other has.
2. So it is with the runs of a world in virtual time in which the token does not fire: every query
   starts no later, and ends as long afterwards as it takes; and the run returns, no later. -/
theorem higher_limit_never_slower (service : String) (queries : List Query) (duration : Nat → Nat)
    {c c' : Nat} (hLimit : c ≤ c') :
    (∀ (slow : Course ⟨c, service⟩ queries duration) (fast : Course ⟨c', service⟩ queries duration)
      (time : Nat),
      (∀ i, (slow.state time).hasStartedAt i = true → (fast.state time).hasStartedAt i = true) ∧
      (∀ i, (slow.state time).hasEndedAt i = true → (fast.state time).hasEndedAt i = true) ∧
      ((slow.state time).returned.isSome = true → (fast.state time).returned.isSome = true)) ∧
    ∀ w : World,
      (∀ i q, queries[i]? = some q → ∀ start, w.duration service q start = duration i) →
      (Timeline.run ⟨c, service⟩ w queries).state.fired = false →
      (Timeline.run ⟨c', service⟩ w queries).state.fired = false →
      let slowFrom := Timeline.HoldsFrom ⟨c, service⟩ w queries
      let fastFrom := Timeline.HoldsFrom ⟨c', service⟩ w queries
      let finish := (Timeline.run ⟨c, service⟩ w queries).now
      let finish' := (Timeline.run ⟨c', service⟩ w queries).now
      (∀ i < queries.length, ∃ start start', start' ≤ start ∧
        slowFrom (fun s => s.hasStartedAt i) start ∧
        slowFrom (fun s => s.hasEndedAt i) (start + duration i) ∧
        fastFrom (fun s => s.hasStartedAt i) start' ∧
        fastFrom (fun s => s.hasEndedAt i) (start' + duration i)) ∧
      finish' ≤ finish ∧ slowFrom (fun s => s.returned.isSome) finish ∧
        fastFrom (fun s => s.returned.isSome) finish' := by
  have hPermits : (⟨c, service⟩ : Settings).permits ≤ (⟨c', service⟩ : Settings).permits :=
    Settings.permits_le hLimit
  refine ⟨fun slow fast => slow.no_later_of_permits_le fast hPermits, ?_⟩
  intro w hFixed hSlow hFast slowFrom fastFrom finish finish'
  let slow : Course ⟨c, service⟩ queries duration := Timeline.course _ w _ _ hFixed hSlow
  let fast : Course ⟨c', service⟩ queries duration := Timeline.course _ w _ _ hFixed hFast
  have hCourses := slow.no_later_of_permits_le fast hPermits
  have hFinish : slowFrom (fun s => s.returned.isSome) finish :=
    Timeline.holdsFrom_returned ⟨c, service⟩ w queries
  have hFinish' : fastFrom (fun s => s.returned.isSome) finish' :=
    Timeline.holdsFrom_returned ⟨c', service⟩ w queries
  refine ⟨fun i hIndex => ?_, ?_, hFinish, hFinish'⟩
  · obtain ⟨start, hStart, hEnd⟩ := Timeline.exists_times hSlow hFixed hIndex
    obtain ⟨start', hStart', hEnd'⟩ := Timeline.exists_times hFast hFixed hIndex
    refine ⟨start, start', ?_, hStart, hEnd, hStart', hEnd'⟩
    exact Timeline.le_of_holdsFrom (Timeline.kept_hasStartedAt i) (Timeline.kept_hasStartedAt i)
      hStart hStart' fun time => (hCourses time).1 i
  · exact Timeline.le_of_holdsFrom Timeline.kept_returned Timeline.kept_returned hFinish hFinish'
      fun time => (hCourses time).2.2

/-- Three queries, of which the second one crashes: with two permits the third starts when the first
has ended, and with one permit only after the second. -/
theorem higher_limit_never_slower_three_queries :
    let w : World := {
      shell := fun _ => none
      source := fun call =>
        if call.sql = "b" then ⟨6, .crashed "overflow" false⟩ else ⟨3, .answered (.ok []) false⟩
      exporter := fun _ _ => ⟨1, .answered (.ok ()) false⟩
      clock := fun _ => 0
      fireAt := none }
    let queries : List Query := [{ sql := "a" }, { sql := "b" }, { sql := "c" }]
    let duration : Nat → Nat := fun i => if i = 1 then 6 else 4
    (∀ i q, queries[i]? = some q → ∀ start, w.duration "web" q start = duration i) ∧
      (Timeline.run ⟨1, "web"⟩ w queries).now = 14 ∧ (Timeline.run ⟨2, "web"⟩ w queries).now = 8 ∧
      (∃ start start', start' ≤ start ∧
        Timeline.HoldsFrom ⟨1, "web"⟩ w queries (fun s => s.hasStartedAt 2) start ∧
        Timeline.HoldsFrom ⟨2, "web"⟩ w queries (fun s => s.hasStartedAt 2) start') ∧
      (Timeline.run ⟨2, "web"⟩ w queries).now ≤ (Timeline.run ⟨1, "web"⟩ w queries).now := by
  intro w queries duration
  have hFixed : ∀ i q, queries[i]? = some q → ∀ start, w.duration "web" q start = duration i := by
    intro i q hQuery start
    match i with
    | 0 | 1 | 2 =>
      cases hQuery
      rfl
    | i + 3 => cases hQuery
  have hSlow : (Timeline.run ⟨1, "web"⟩ w queries).state.fired = false := by decide
  have hFast : (Timeline.run ⟨2, "web"⟩ w queries).state.fired = false := by decide
  obtain ⟨-, hWorlds⟩ := higher_limit_never_slower "web" queries duration
    (show 1 ≤ 2 by decide)
  obtain ⟨hTimes, hLess, -, -⟩ := hWorlds w hFixed hSlow hFast
  obtain ⟨start, start', hLe, hStart, -, hStart', -⟩ := hTimes 2 (by decide)
  exact ⟨hFixed, by decide, by decide, ⟨start, start', hLe, hStart, hStart'⟩, hLess⟩

end SqlMetrics.Collector
