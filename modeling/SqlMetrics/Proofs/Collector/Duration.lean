import SqlMetrics.Proofs.Collector.Schedule

/-!
# Runs in virtual time come to an end

`Timeline.run` gives a run as much fuel as `Timeline.stepBound` says.  This file shows that this is
enough, and what is left to do once the token has fired.

- **Descent**: every tick makes `Timeline.potential` smaller (`potential_lt`), which is at most the
  bound at the start.
- **Return**: `returned_run` states that a run has returned when it stops.
- **Standstill**: once the token has fired, time stands still and no query is admitted
  (`runFor_of_fired`).
-/

namespace SqlMetrics.Collector

namespace Timeline

variable {cfg : Settings} {w : World} {queries : List Query} {t t' : Timeline}

/-! ## Descent -/

/-- What the runnable tasks add to the potential: one that will make its call adds more. -/
def readyPotential : List Runnable → Nat
  | [] => 0
  | r :: rest => (if r.replied then 1 else 3) + readyPotential rest

theorem readyPotential_append (l₁ l₂ : List Runnable) :
    readyPotential (l₁ ++ l₂) = readyPotential l₁ + readyPotential l₂ := by
  induction l₁ with
  | nil => simp [readyPotential]
  | cons r rest ih => simp [readyPotential, ih, Nat.add_assoc]

theorem readyPotential_le (l : List Runnable) : readyPotential l ≤ 3 * l.length := by
  induction l with
  | nil => simp [readyPotential]
  | cons r rest ih =>
    simp only [readyPotential, List.length_cons]
    split <;> omega

theorem readyPotential_replied (calls : List Waiting) :
    readyPotential (calls.map fun c => ⟨c.index, true⟩) = calls.length := by
  induction calls with
  | nil => rfl
  | cons c rest ih =>
    simp only [List.map_cons, readyPotential, ih, if_true, List.length_cons]
    omega

/-- Whether the turn has to change before anything else can happen. -/
def isTurnDue (cfg : Settings) (t : Timeline) : Bool :=
  (runMove? cfg t.state).isSome != (t.turn == .run)

/-- How many steps a timeline still takes, at most. -/
def potential (cfg : Settings) (t : Timeline) : Nat :=
  4 * t.state.remaining + t.state.pending.length + readyPotential t.ready + 2 * t.waiting.length +
    3 * ((t.state.tasks.length + t.state.pending.length) * (!t.state.fired).toNat) +
    (t.isTurnDue cfg).toNat

theorem length_toWake_le (t : Timeline) (tasks : List Task) :
    (t.toWake tasks).length ≤ tasks.length := by
  rw [toWake, List.length_map]
  exact Nat.le_trans (List.length_filter_le ..) (by simp)

/-- A move of the machine pays for a runnable task, and the firing of the token for all of them. -/
theorem potential_after_lt {m : Move} {s' : State} (hStep : Step cfg t.state m s')
    (hPending : s'.pending = t.state.pending) (hTasks : s'.tasks.length = t.state.tasks.length) :
    (t.after s').potential cfg + 3 ≤ t.potential cfg := by
  have hLess := State.remaining_step hStep
  have hDue : ((t.after s').isTurnDue cfg).toNat ≤ 1 := Bool.toNat_le _
  unfold potential
  rw [after_state, hPending, hTasks]
  rcases fired_cases hStep with hSame | ⟨hUnfired, hFired⟩
  · obtain ⟨hReady, hWaiting⟩ := after_of_kept hSame
    rw [hReady, hWaiting, hSame]
    omega
  · -- The summand that is gone with the firing pays for all tasks that are woken.
    obtain ⟨hReady, hWaiting⟩ := after_of_fired hUnfired hFired
    have hWake := readyPotential_le (t.toWake s'.tasks)
    have hLength := t.length_toWake_le s'.tasks
    rw [hReady, hWaiting, hUnfired, hFired, readyPotential_append]
    simp only [Bool.not_true, Bool.not_false, Bool.toNat_true, Bool.toNat_false, List.length_nil]
    omega

/-- The potential of a timeline with other runnable tasks. -/
theorem potential_ready (cfg : Settings) (t : Timeline) (ready : List Runnable) :
    { t with ready := ready }.potential cfg + readyPotential t.ready =
      t.potential cfg + readyPotential ready := by
  have hDue : { t with ready := ready }.isTurnDue cfg = t.isTurnDue cfg := rfl
  unfold potential
  rw [hDue]
  dsimp only
  omega

/-- When time moves on, a call is due or the token fires. -/
theorem exists_due {time : Nat} (hTime : nextTime? w t = some time)
    (hQuiet : w.fireAt ≠ some time) : 0 < t.waiting.countP fun c => c.due ≤ time := by
  have hMem := (List.min?_eq_some_iff.mp hTime).1
  rcases List.mem_append.mp hMem with hDue | hFire
  · obtain ⟨c, hCall, rfl⟩ := List.mem_map.mp hDue
    exact List.countP_pos_iff.mpr ⟨c, hCall, by simp⟩
  · split at hFire
    · cases hFire
    · exact absurd (by simpa [Option.mem_toList] using hFire) hQuiet

theorem potential_advance_lt {time : Nat} (hUnfired : t.state.fired = false)
    (hTime : nextTime? w t = some time) :
    (advance cfg w t time).potential cfg < t.potential cfg := by
  by_cases hFire : w.fireAt = some time
  · rw [advance_of_fire hUnfired hFire]
    have hStep : Step cfg t.state .fire { t.state with fired := true } := .fire hUnfired
    have hLess := potential_after_lt (t := { t with now := time }) hStep rfl rfl
    have hSame : { t with now := time }.potential cfg = t.potential cfg := rfl
    omega
  · -- Every call that is due turns from a waiting one into a runnable one, which counts less.
    have hDue := exists_due hTime hFire
    have hSplit := List.length_eq_countP_add_countP (fun c : Waiting => decide (c.due ≤ time))
      (l := t.waiting)
    have hTurn : (advance cfg w t time).isTurnDue cfg = t.isTurnDue cfg := by
      rw [advance_of_quiet (.inr hFire)]
      rfl
    unfold potential
    rw [hTurn, advance_of_quiet (.inr hFire)]
    simp only [readyPotential_append, readyPotential_replied, ← List.countP_eq_length_filter]
    simp only [decide_eq_true_eq, decide_not] at hSplit
    omega

/-- A query that becomes a task is one less among the pending ones, and its task is runnable. -/
theorem potential_spawn_lt {s' : State} (hStep : Step cfg t.state .spawn s') :
    potential cfg { t.after s' with ready := t.ready ++ [⟨t.state.tasks.length, false⟩] } <
      t.potential cfg := by
  have hLess := State.remaining_step hStep
  have hFired := fired_of_mem_runMoves (by simp [runMoves]) hStep
  obtain ⟨-, hWaiting⟩ := after_of_kept hFired
  obtain ⟨hPending, hSum⟩ : s'.pending.length + 1 = t.state.pending.length ∧
      s'.tasks.length + s'.pending.length = t.state.tasks.length + t.state.pending.length := by
    cases hStep with
    | task hIndex => cases hIndex
    | spawn hHolding hPending =>
      rw [hPending]
      refine ⟨rfl, ?_⟩
      simp only [List.length_append, List.length_cons, List.length_nil]
      omega
  have hNew : readyPotential (t.ready ++ [⟨t.state.tasks.length, false⟩]) =
      readyPotential t.ready + 3 := readyPotential_append ..
  unfold potential
  refine Nat.lt_of_le_of_lt (Nat.add_le_add_left (Bool.toNat_le _) _) ?_
  simp only [after_state, hWaiting, hFired, hSum, hNew]
  omega

/-- **Every tick brings a timeline closer to its end.** -/
theorem potential_lt (h : Scheduled cfg w queries t) (hTick : Tick cfg w t t') :
    t'.potential cfg < t.potential cfg := by
  cases hTick with
  | spawn hTurn hStep => exact potential_spawn_lt hStep
  | @own m s' hTurn hMem hMove hStep =>
    have hSame : s'.pending = t.state.pending ∧ s'.tasks.length = t.state.tasks.length := by
      obtain ⟨hIndex, -⟩ := index?_of_mem_runMoves hMem
      cases hStep with
      | spawn => exact absurd rfl hMove
      | task hSome => simp [hSome] at hIndex
      | _ => exact ⟨rfl, rfl⟩
    have hLess := potential_after_lt hStep hSame.1 hSame.2
    omega
  | yield hTurn hStuck =>
    simp only [potential, isTurnDue, hTurn, hStuck]
    exact Nat.add_lt_add_left (by decide) _
  | wait hTurn hReady hReplied hUnfired hTask hWaits =>
    simp only [potential, isTurnDue, hReady, readyPotential, hReplied, List.length_append,
      List.length_singleton, Bool.false_eq_true, if_false]
    omega
  | @drop r rest hTurn hReady hOver =>
    -- The machine does not move, but one runnable task is gone.
    have hSame := potential_ready cfg t rest
    simp only [hReady, readyPotential] at hSame
    split at hSame <;> omega
  | @move r rest m s' hTurn hReady hAbout hStep hStarted =>
    -- The task may be runnable again, for which the move of the machine pays.
    obtain ⟨-, hPending, hTasks, -⟩ := Scheduled.tasks_of_about hStep hAbout
    generalize hNext : (if goesOn s' r.index then (⟨r.index, false⟩ : Runnable) :: rest else rest) =
      next
    have hNextLe : readyPotential next ≤ 3 + readyPotential rest := by
      rw [← hNext]
      split
      · simp [readyPotential]
      · omega
    have hHead : 1 ≤ if r.replied then 1 else 3 := by split <;> decide
    have hSame := potential_ready cfg t next
    have hLess := potential_after_lt (t := { t with ready := next }) hStep hPending hTasks
    rw [hReady, readyPotential] at hSame
    omega
  | resume hTurn hReady hCan =>
    simp only [potential, isTurnDue, hTurn, hCan]
    exact Nat.add_lt_add_left (by decide) _
  | pass hTurn hReady hStuck hTime =>
    exact potential_advance_lt (h.time_le hTime).1 hTime

/-! ## The end of a run -/

/-- A run that has not returned goes on by itself when all its tasks are over. -/
theorem runMove?_ne_none_of_over {s : State} (hAdmitting : Admitting cfg queries s)
    (hReturned : s.returned = none) (hOver : ∀ task ∈ s.tasks, task.hasEnded = true) :
    runMove? cfg s ≠ none := by
  intro hStuck
  have hNot {m : Move} {s' : State} (hMem : m ∈ runMoves) : ¬ Step cfg s m s' :=
    not_step_of_runMove? hStuck hMem
  rcases exists_step hAdmitting hReturned 0 with ⟨m, s', hOwn, hStep⟩ | ⟨-, task, hMem, hWaits⟩
  · cases hStep with
    | acquire hSeeking hPending hFired hFree =>
      exact hNot (by simp [runMoves]) (.acquire hSeeking hPending hFired hFree)
    | spawn hHolding hPending => exact hNot (by simp [runMoves]) (.spawn hHolding hPending)
    | close hSeeking hDone => exact hNot (by simp [runMoves]) (.close hSeeking hDone)
    | see hClosed hUnseen => exact hNot (by simp [runMoves]) (.see hClosed hUnseen)
    | finish hClosed hUnseen hEnded hYet =>
      exact hNot (by simp [runMoves]) (.finish hClosed hUnseen hEnded hYet)
    | fire => exact hOwn
    | task hIndex hTask hEffect =>
      -- A task that can make a move is not over.
      have hEnded := hOver _ (List.mem_of_getElem? hTask)
      rw [Task.hasEnded_of_effect? hEffect] at hEnded
      cases hEnded
  · -- Nor is one that waits for an answer.
    have hEnded := hOver task hMem
    obtain ⟨q, phase⟩ := task
    cases phase with
    | ended error => cases hWaits
    | spawned | executing | exporting => cases hEnded

/-- When no task is runnable and none waits for a call, all tasks are over. -/
theorem over_of_idle (h : Scheduled cfg w queries t) (hReady : t.ready = [])
    (hWaiting : t.waiting = []) : ∀ task ∈ t.state.tasks, task.hasEnded = true := by
  intro task hMem
  obtain ⟨i, hTask⟩ := List.mem_iff_getElem?.mp hMem
  refine eq_true_of_ne_false fun hUnended => ?_
  rcases h.tracked i task hTask hUnended with hRunnable | ⟨-, hCalls⟩
  · simp [hReady] at hRunnable
  · simp [hWaiting] at hCalls

/-- A timeline without a next step has returned. -/
theorem returned_of_next?_eq_none (h : Scheduled cfg w queries t) (hNone : next? cfg w t = none) :
    t.state.returned.isSome = true := by
  cases hReturned : t.state.returned with
  | some r => rfl
  | none =>
    exfalso
    rw [next?, hReturned] at hNone
    simp only [Option.isSome_none, Bool.false_eq_true, if_false] at hNone
    cases hTurn : t.turn with
    | run =>
      simp only [hTurn] at hNone
      split at hNone <;> cases hNone
    | tasks =>
      simp only [hTurn] at hNone
      split at hNone
      · cases hNone
      · next hReady =>
        split at hNone
        · cases hNone
        · next hStuck =>
          -- Time cannot move on, so no call is under way; then the run itself has a move to make.
          have hTimes := List.min?_eq_none_iff.mp (Option.map_eq_none_iff.mp hNone)
          have hWaiting : t.waiting = [] := by simpa using (List.append_eq_nil_iff.mp hTimes).1
          refine runMove?_ne_none_of_over h.admitting hReturned (over_of_idle h hReady hWaiting) ?_
          simpa using hStuck

/-- With fuel for its potential, a timeline goes on until it has no next step. -/
theorem next?_runFor_eq_none (h : Scheduled cfg w queries t) {fuel : Nat}
    (hFuel : t.potential cfg ≤ fuel) : next? cfg w (runFor cfg w fuel t) = none := by
  induction fuel generalizing t with
  | zero =>
    cases hNext : next? cfg w t with
    | none => exact hNext
    | some t₁ =>
      -- A timeline with a next step has a positive potential.
      have hLess := potential_lt h (.of_next? h.stable hNext)
      omega
  | succ fuel ih =>
    rw [runFor]
    cases hNext : next? cfg w t with
    | none => exact hNext
    | some t₁ =>
      have hTick := Tick.of_next? h.stable hNext
      have hLess := potential_lt h hTick
      exact ih (h.tick hTick) (by omega)

theorem pendingDistance_eq (queries : List Query) :
    pendingDistance queries = (queries.flatMap Query.params).length + 7 * queries.length := by
  induction queries with
  | nil => rfl
  | cons q rest ih =>
    simp only [pendingDistance, ih, List.flatMap_cons, List.length_append, List.length_cons]
    omega

/-- The bound on the steps of a run is more than its potential. -/
theorem potential_init_le (queries : List Query) (fired : Bool) :
    (init cfg queries fired).potential cfg ≤ stepBound queries := by
  have hFired : (!fired).toNat ≤ 1 := Bool.toNat_le _
  have hDue : ((init cfg queries fired).isTurnDue cfg).toNat ≤ 1 := Bool.toNat_le _
  have hProduct : queries.length * (!fired).toNat ≤ queries.length * 1 :=
    Nat.mul_le_mul_left _ hFired
  have hParams : (queries.flatMap fun q => q.params) = queries.flatMap Query.params := rfl
  simp only [potential, init, State.init, State.remaining, totalDistance, pendingDistance_eq,
    Admission.distance, List.length_nil, readyPotential, stepBound, hParams, Option.isNone_none,
    Bool.toNat_true, Nat.zero_add] at hDue ⊢
  omega

/-- **A run returns**: whatever its world is, it makes no more steps than it has fuel for. -/
theorem returned_run (cfg : Settings) (w : World) (queries : List Query) :
    (run cfg w queries).state.returned.isSome = true := by
  have hStart : Scheduled cfg w queries (init cfg queries (w.fireAt == some 0)) := .init
  exact returned_of_next?_eq_none (hStart.runFor _)
    (next?_runFor_eq_none hStart (potential_init_le queries _))

/-! ## Parts of a run -/

theorem runFor_of_next?_eq_none (h : next? cfg w t = none) (fuel : Nat) :
    runFor cfg w fuel t = t := by
  cases fuel with
  | zero => rfl
  | succ fuel => simp [runFor, h]

theorem runFor_add (m n : Nat) :
    runFor cfg w (m + n) t = runFor cfg w n (runFor cfg w m t) := by
  induction m generalizing t with
  | zero => rw [Nat.zero_add, runFor]
  | succ m ih =>
    rw [Nat.succ_add, runFor, runFor]
    cases hNext : next? cfg w t with
    | none => exact (runFor_of_next?_eq_none hNext n).symm
    | some t₁ => exact ih

/-- The end of a run is what each of its timelines comes to. -/
theorem exists_run_eq (cfg : Settings) (w : World) (queries : List Query) (steps : Nat) :
    ∃ more, run cfg w queries =
      runFor cfg w more (runFor cfg w steps (init cfg queries (w.fireAt == some 0))) := by
  have hStart : Scheduled cfg w queries (init cfg queries (w.fireAt == some 0)) := .init
  have hStuck := next?_runFor_eq_none hStart (potential_init_le queries _)
  rcases Nat.le_total steps (stepBound queries) with hLess | hMore
  · refine ⟨stepBound queries - steps, ?_⟩
    rw [← runFor_add, Nat.add_sub_cancel' hLess]
    rfl
  · -- The run had come to its end before so many steps.
    refine ⟨0, ?_⟩
    obtain ⟨extra, rfl⟩ := Nat.exists_eq_add_of_le hMore
    rw [runFor_add, runFor_of_next?_eq_none hStuck]
    rfl

/-- Once the token has fired, time stands still and no query is admitted. -/
theorem tick_of_fired (h : Scheduled cfg w queries t) (hFired : t.state.fired = true)
    (hTick : Tick cfg w t t') :
    t'.state.fired = true ∧ t'.now = t.now ∧ t'.state.admitted = t.state.admitted := by
  -- The loop has no permit in its hand and can take none, so no query becomes a task.
  have hHand := h.handed (.inr hFired)
  have hKept {m : Move} {s' : State} (hStep : Step cfg t.state m s') :
      s'.fired = true ∧ s'.admitted = t.state.admitted := by
    refine ⟨State.fired_step hStep hFired, ?_⟩
    rcases State.admitted_step hStep with ⟨hSame, -⟩ | ⟨q, rfl, -, -⟩
    · exact hSame
    · cases hStep with
      | spawn hHolding => exact absurd hHolding hHand
      | task hIndex => cases hIndex
  cases hTick with
  | spawn hTurn hStep =>
    exact ⟨by simpa using (hKept hStep).1, by simp, by simpa using (hKept hStep).2⟩
  | own hTurn hMem hMove hStep =>
    exact ⟨by simpa using (hKept hStep).1, by simp, by simpa using (hKept hStep).2⟩
  | move hTurn hReady hAbout hStep hStarted =>
    exact ⟨by simpa using (hKept hStep).1, by simp, by simpa using (hKept hStep).2⟩
  | yield | wait | drop | resume => exact ⟨hFired, rfl, rfl⟩
  | pass hTurn hReady hStuck hTime =>
    have hUnfired := (h.time_le hTime).1
    rw [hFired] at hUnfired
    cases hUnfired

theorem runFor_of_fired (h : Scheduled cfg w queries t) (hFired : t.state.fired = true)
    (fuel : Nat) :
    (runFor cfg w fuel t).now = t.now ∧
      (runFor cfg w fuel t).state.admitted = t.state.admitted := by
  induction fuel generalizing t with
  | zero => exact ⟨rfl, rfl⟩
  | succ fuel ih =>
    rw [runFor]
    cases hNext : next? cfg w t with
    | none => exact ⟨rfl, rfl⟩
    | some t₁ =>
      have hTick := Tick.of_next? h.stable hNext
      obtain ⟨hStill, hNow, hAdmitted⟩ := tick_of_fired h hFired hTick
      obtain ⟨hNow', hAdmitted'⟩ := ih (h.tick hTick) hStill
      exact ⟨hNow'.trans hNow, hAdmitted'.trans hAdmitted⟩

end Timeline

end SqlMetrics.Collector
