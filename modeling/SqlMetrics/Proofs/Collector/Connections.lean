import Mathlib
import SqlMetrics.Collector.Pooled
import SqlMetrics.Proofs.Collector.Permits
import SqlMetrics.Proofs.Source.Pool

/-!
# Connections of a run

A run over a pool of connections calls the pool once for each query at most, and from a task that has
a permit.  The task keeps the permit until the work of its call is over, unless the token fires; and
after that nothing is called.  So the pool never has more work than there are permits, and the run no
more connections.

- **Moves**: `Happens` says what can happen in a run over a pool, `exists_step?_run` that the pool
  keeps the run from no move that it allows.
- **Invariant**: `Matched` ties the work of the pool to the tasks of the run.
- **Conservation**: `connections_conserved` puts together what holds of the connections of a pool,
  and of a run over one.
-/

namespace SqlMetrics.Collector

open Sqlite (Pool Worker)

/-! ## Calls -/

/-- The task waits for the data source. -/
def Task.Queries (t : Task) : Prop :=
  ∃ now params, t.phase = .executing (.querying now params)

theorem Task.Queries.hasEnded {t : Task} (h : t.Queries) : t.hasEnded = false := by
  obtain ⟨now, params, hPhase⟩ := h
  simp [Task.hasEnded, hPhase]

theorem Task.Queries.distance {t : Task} (h : t.Queries) : t.distance = 3 := by
  obtain ⟨now, params, hPhase⟩ := h
  simp [Task.distance, hPhase]

section Calls

variable {cfg : Settings} {index : Nat} {t : Task} {e : TaskEffect}

/-- A task calls the data source when it has not called it before, and then waits for it. -/
theorem Change.callers {fired : Bool} (h : Change cfg fired index t e) :
    e.externals.filterMap External.caller? = [] ∨
      (e.externals.filterMap External.caller? = [index] ∧ fired = false ∧ e.fires = false ∧
        3 < t.distance ∧ Task.Queries ⟨t.query, e.phase⟩) := by
  cases h with
  | call hFired hCloser => exact .inr ⟨rfl, hFired, rfl, hCloser, _, _, rfl⟩
  | command | exporting | interrupted | delivered | failed => exact .inl rfl

/-- While the work of its call goes on, a task that waits for the data source can only fire the
token. -/
theorem Task.Queries.fires_of_effect? {p : PooledRun} {m : Move} (hQueries : t.Queries)
    (hBusy : (p.worker? index).isSome = true) (hAllows : p.allows m = true)
    (hIndex : m.index? = some index) (hEffect : t.effect? cfg false m = some e) :
    e.fires = true := by
  obtain ⟨now, params, hQuerying⟩ := hQueries
  cases TaskMove.of_effect? hEffect with
  | start i now hPhase => simp [hQuerying] at hPhase
  | commandEnds i outcome hFired hPhase => simp [hQuerying] at hPhase
  | sourceReplies i reply hFired hPhase =>
    cases hIndex
    cases reply with
    | interrupted => rfl
    | answered | crashed => simp [PooledRun.allows, Option.isSome_iff_ne_none.mp hBusy] at hAllows
  | exportReplies i reply hFired hPhase => simp [hQuerying] at hPhase
  | wake i hFired => cases hFired

end Calls

namespace PooledRun

variable {cfg : Settings} {queries : List Query} {p q : PooledRun}

/-! ## Moves -/

/-- What can happen in a run over a pool. -/
inductive Happens (cfg : Settings) (p : PooledRun) : PooledRun → Prop
  /-- The run makes a move that calls nothing; a call may be abandoned. -/
  | move {m : Collector.Move} {run : State} {pool : Pool} (hMove : Step cfg p.run m run)
      (hAllows : p.allows m = true) (hCallers : run.callers = p.run.callers)
      (hPool : pool = p.pool ∨ ∃ call, p.pool.step (.abandon call) = some pool) :
    Happens cfg p { run, pool }
  /-- A task calls the data source. -/
  | call {m : Collector.Move} {index : Nat} {t : Task} {e : TaskEffect} {pool : Pool}
      (hMove : Step cfg p.run m (p.run.apply index t e)) (hTask : p.run.tasks[index]? = some t)
      (hChange : Change cfg p.run.fired index t e)
      (hCalls : e.externals.filterMap External.caller? = [index])
      (hPool : p.pool.step .call = some pool) :
    Happens cfg p { run := p.run.apply index t e, pool }
  /-- The work of a call gets on or ends. -/
  | work {s : Pool.Step} {pool : Pool} (hWork : s.isWork = true)
      (hPool : p.pool.step s = some pool) :
    Happens cfg p { p with pool }

theorem callers_apply (index : Nat) (t : Task) (e : TaskEffect) :
    (p.run.apply index t e).callers =
      p.run.callers ++ e.externals.filterMap External.caller? := by
  rw [State.callers, State.apply_externals, List.filterMap_append]
  rfl

/-- A move of the run calls nothing, or a task calls the data source with it. -/
theorem callers_step {m : Collector.Move} {run : State} (hMove : Step cfg p.run m run) :
    run.callers = p.run.callers ∨
      ∃ index t e, run = p.run.apply index t e ∧ p.run.tasks[index]? = some t ∧
        Change cfg p.run.fired index t e ∧
        e.externals.filterMap External.caller? = [index] := by
  cases hMove with
  | @task _ index t e hIndex hTask hEffect =>
    have hChange := Change.of_effect? hIndex hEffect
    rcases hChange.callers with hNone | ⟨hOne, -⟩
    · exact .inl (by rw [callers_apply, hNone, List.append_nil])
    · exact .inr ⟨index, t, e, rfl, hTask, hChange, hOne⟩
  | acquire | spawn | close | fire | see | finish => exact .inl rfl

/-- A task that is woken calls nothing. -/
theorem callers_wake {index : Nat} {run : State} (hMove : Step cfg p.run (.wake index) run) :
    run.callers = p.run.callers := by
  cases hMove with
  | task hIndex hTask hEffect =>
    cases TaskMove.of_effect? hEffect with
    | wake i hFired hWaits => rw [callers_apply, TaskEffect.ending, List.filterMap_nil,
        List.append_nil]

/-- A move that calls nothing leaves the pool alone, or abandons a call whose work goes on. -/
theorem poolSteps_of_quiet {run : State} (hCallers : run.callers = p.run.callers)
    (m : Collector.Move) :
    p.poolSteps m run = [] ∨ ∃ w ∈ p.pool.workers, p.poolSteps m run = [.abandon w.call] := by
  cases m with
  | wake index =>
    cases hWorker : p.worker? index with
    | none => exact .inl (by simp [poolSteps, hCallers, hWorker])
    | some w =>
      exact .inr ⟨w, List.mem_of_find?_eq_some hWorker, by simp [poolSteps, hCallers, hWorker]⟩
  | _ => exact .inl (by simp [poolSteps, hCallers])

/-- A move with which a task calls the data source calls the pool. -/
theorem poolSteps_of_call {m : Collector.Move} {run : State} (hMove : Step cfg p.run m run)
    {index : Nat} (hCallers : run.callers = p.run.callers ++ [index]) :
    p.poolSteps m run = [.call] := by
  cases m with
  | wake index =>
    rw [callers_wake hMove] at hCallers
    simp at hCallers
  | _ => simp [poolSteps, hCallers]

theorem isSome_step_abandon {pool : Pool} {w : Worker} (hMem : w ∈ pool.workers) :
    (pool.step (.abandon w.call)).isSome = true := by
  have hWorker : (pool.worker? w.call).isSome = true :=
    List.find?_isSome.mpr ⟨w, hMem, beq_self_eq_true _⟩
  simp [Pool.step, hWorker]

/-- **The pool keeps the run from no move that it allows.** -/
theorem exists_step?_run {m : Collector.Move} {run : State} (hMove : p.run.step? cfg m = some run)
    (hAllows : p.allows m = true) : ∃ pool, p.step? cfg (.run m) = some { run, pool } := by
  have hPool : ∃ pool, p.pool.run (p.poolSteps m run) = some pool := by
    have hStep := Step.of_step? hMove
    rcases callers_step hStep with hQuiet | ⟨index, t, e, rfl, -, -, hCalls⟩
    · rcases poolSteps_of_quiet hQuiet m with hNone | ⟨w, hMem, hOne⟩
      · exact ⟨p.pool, by rw [hNone]; rfl⟩
      · obtain ⟨pool, hPool⟩ := Option.isSome_iff_exists.mp (isSome_step_abandon hMem)
        exact ⟨pool, by rw [hOne, Pool.run, hPool]; rfl⟩
    · have hCallers := callers_apply (p := p) index t e
      rw [hCalls] at hCallers
      exact ⟨_, by rw [poolSteps_of_call hStep hCallers]; rfl⟩
  obtain ⟨pool, hPool⟩ := hPool
  exact ⟨pool, by simp [step?, hAllows, hMove, hPool]⟩

/-- Every move is one of what can happen. -/
theorem Happens.of_step? {m : Move} (h : p.step? cfg m = some q) : Happens cfg p q := by
  cases m with
  | work s =>
    simp only [step?, Option.ite_none_right_eq_some, Option.map_eq_some_iff] at h
    obtain ⟨hWork, pool, hPool, rfl⟩ := h
    exact .work hWork hPool
  | run m =>
    simp only [step?, Option.ite_none_right_eq_some, Option.bind_eq_bind, Option.bind_eq_some_iff,
      Option.pure_def, Option.some.injEq] at h
    obtain ⟨hAllows, run, hRun, pool, hPool, rfl⟩ := h
    have hMove := Step.of_step? hRun
    rcases callers_step hMove with hQuiet | ⟨index, t, e, rfl, hTask, hChange, hCalls⟩
    · refine .move hMove hAllows hQuiet ?_
      rcases poolSteps_of_quiet hQuiet m with hNone | ⟨w, -, hOne⟩
      · rw [hNone] at hPool
        exact .inl (Option.some.inj hPool).symm
      · rw [hOne, Pool.run_singleton] at hPool
        exact .inr ⟨w.call, hPool⟩
    · have hCallers := callers_apply (p := p) index t e
      rw [hCalls] at hCallers
      rw [poolSteps_of_call hMove hCallers, Pool.run_singleton] at hPool
      exact .call hMove hTask hChange hCalls hPool

/-! ## The invariant -/

/-- What holds of every state of a run over a pool:
1. the pool is sound, and permits are conserved;
2. the calls of the pool are those of the run, and no query has made two;
3. a query that has called has a task that is past its call;
4. until the token fires, the work of a call has a task that waits for it;
5. at no time was there more work than there are permits. -/
structure Matched (cfg : Settings) (queries : List Query) (p : PooledRun) : Prop where
  sound : p.pool.Sound
  admitting : Admitting cfg queries p.run
  called : p.pool.called = p.run.callers.length
  callers : p.run.callers.Nodup
  past : ∀ i ∈ p.run.callers, ∃ t, p.run.tasks[i]? = some t ∧ t.distance ≤ 3
  awaited : p.run.fired = false → ∀ call ∈ p.pool.workers.map Worker.call, ∃ i t,
    p.run.callers[call]? = some i ∧ p.run.tasks[i]? = some t ∧ t.Queries
  most : p.pool.mostWorkers ≤ cfg.permits

/-- There is no more work than tasks that are not over, if a task of its own waits for each. -/
theorem length_le_unfinished {s : State} {calls : List Nat} (hCalls : calls.Nodup)
    (hCallers : s.callers.Nodup)
    (hAwaited : ∀ call ∈ calls, ∃ i t, s.callers[call]? = some i ∧ s.tasks[i]? = some t ∧
      t.Queries) : calls.length ≤ s.unfinished := by
  let queriesOf := calls.map fun call => s.callers[call]?.getD 0
  let unfinished := s.tasks.zipIdx.filter fun x => !x.1.hasEnded
  have hUnfinished : unfinished.length = s.unfinished := by
    rw [State.unfinished, ← List.countP_eq_length_filter]
    conv_rhs => rw [← List.zipIdx_map_fst 0 s.tasks, List.countP_map]
    rfl
  have hNodup : queriesOf.Nodup := by
    -- No query has called twice, so different calls are those of different queries.
    refine hCalls.map_on fun a hA b hB hSame => ?_
    obtain ⟨i, t, hCallA, -⟩ := hAwaited a hA
    obtain ⟨j, u, hCallB, -⟩ := hAwaited b hB
    rw [hCallA, hCallB] at hSame
    obtain rfl : i = j := hSame
    obtain ⟨hLt, -⟩ := List.getElem?_eq_some_iff.mp hCallA
    exact (List.getElem?_inj hLt hCallers).mp (hCallA.trans hCallB.symm)
  have hSubset : queriesOf ⊆ unfinished.map Prod.snd := by
    intro i hMem
    obtain ⟨call, hCall, rfl⟩ := List.mem_map.mp hMem
    obtain ⟨i, t, hCaller, hTask, hQueries⟩ := hAwaited call hCall
    refine List.mem_map.mpr ⟨(t, i), List.mem_filter.mpr ⟨?_, ?_⟩, by simp [hCaller]⟩
    · exact List.mem_zipIdx_iff_getElem?.mpr hTask
    · simp [hQueries.hasEnded]
  calc calls.length = queriesOf.length := (List.length_map _).symm
    _ ≤ (unfinished.map Prod.snd).length := (List.subperm_of_subset hNodup hSubset).length_le
    _ = s.unfinished := by rw [List.length_map, hUnfinished]

/-- After a move, a task is where it was, or it has made the move. -/
theorem exists_task_step {s s' : State} {m : Collector.Move} (hMove : Step cfg s m s') {i : Nat}
    {t : Task} (hTask : s.tasks[i]? = some t) : ∃ t', s'.tasks[i]? = some t' ∧
      (t' = t ∨ ∃ e, m.index? = some i ∧ t.effect? cfg s.fired m = some e ∧
        t' = ⟨t.query, e.phase⟩ ∧ s'.fired = (s.fired || e.fires)) := by
  obtain ⟨hLt, -⟩ := List.getElem?_eq_some_iff.mp hTask
  cases hMove with
  | @task _ index u e hIndex hOwn hEffect =>
    by_cases hSame : index = i
    · subst hSame
      obtain rfl : u = t := Option.some.inj (hOwn.symm.trans hTask)
      exact ⟨_, by simp [hLt], .inr ⟨e, hIndex, hEffect, rfl, rfl⟩⟩
    · exact ⟨t, by simpa [hSame] using hTask, .inl rfl⟩
  | spawn => exact ⟨t, by simpa [List.getElem?_append_left hLt] using hTask, .inl rfl⟩
  | acquire | close | fire | see | finish => exact ⟨t, hTask, .inl rfl⟩

namespace Matched

theorem init (fired : Bool) : Matched cfg queries (init cfg queries fired) where
  sound := Pool.sound_initial
  admitting := .init fired
  called := rfl
  callers := List.nodup_nil
  past := nofun
  awaited := nofun
  most := Nat.zero_le _

/-- A move with which nothing is called. -/
theorem move (h : Matched cfg queries p) {m : Collector.Move} {run : State} {pool : Pool}
    (hMove : Step cfg p.run m run) (hAllows : p.allows m = true)
    (hCallers : run.callers = p.run.callers)
    (hPool : pool = p.pool ∨ ∃ call, p.pool.step (.abandon call) = some pool) :
    Matched cfg queries { run, pool } := by
  have hFrame : pool.Sound ∧ pool.called = p.pool.called ∧
      pool.mostWorkers = p.pool.mostWorkers ∧
      pool.workers.map Worker.call ⊆ p.pool.workers.map Worker.call := by
    rcases hPool with rfl | ⟨call, hStep⟩
    · exact ⟨h.sound, rfl, rfl, List.Subset.refl _⟩
    · exact ⟨h.sound.step hStep, h.sound.frame_step hStep nofun⟩
  obtain ⟨hSound, hCalled, hMost, hWorkers⟩ := hFrame
  refine ⟨hSound, h.admitting.step hMove, ?_, ?_, ?_, ?_, ?_⟩
  · rw [hCalled, hCallers, h.called]
  · rw [hCallers]
    exact h.callers
  · intro i hMem
    rw [hCallers] at hMem
    obtain ⟨t, hTask, hPast⟩ := h.past i hMem
    obtain ⟨t', hTask', rfl | ⟨e, hIndex, hEffect, rfl, -⟩⟩ := exists_task_step hMove hTask
    · exact ⟨t', hTask', hPast⟩
    · -- A task that makes a move comes closer to its end.
      refine ⟨_, hTask', ?_⟩
      have hUnended := Task.hasEnded_of_effect? hEffect
      rcases (Change.of_effect? hIndex hEffect).distance_lt hUnended with hCloser | ⟨-, rfl⟩
      · omega
      · exact hPast
  · intro hFired call hMem
    -- A token that has not fired had not before.
    have hUnfired : p.run.fired = false := by
      cases hBefore : p.run.fired with
      | false => rfl
      | true => exact absurd (State.fired_step hMove hBefore) (by simpa using hFired)
    obtain ⟨i, t, hCaller, hTask, hQueries⟩ := h.awaited hUnfired call (hWorkers hMem)
    obtain ⟨t', hTask', hSame | ⟨e, hIndex, hEffect, -, hFires⟩⟩ := exists_task_step hMove hTask
    · exact ⟨i, t', by rwa [hCallers], hTask', hSame ▸ hQueries⟩
    · -- The answer does not come before the work is over, so the task has fired the token.
      obtain ⟨w, hWorker, rfl⟩ := List.mem_map.mp (hWorkers hMem)
      have hBusy : (p.worker? i).isSome = true :=
        List.find?_isSome.mpr ⟨w, hWorker, by simp [hCaller]⟩
      rw [hUnfired] at hEffect
      have hNow := hQueries.fires_of_effect? hBusy hAllows hIndex hEffect
      rw [hNow, Bool.or_true] at hFires
      exact absurd (hFired.symm.trans hFires) Bool.false_ne_true
  · rw [hMost]
    exact h.most

/-- A move with which a task calls the data source. -/
theorem call (h : Matched cfg queries p) {m : Collector.Move} {index : Nat} {t : Task}
    {e : TaskEffect} {pool : Pool} (hMove : Step cfg p.run m (p.run.apply index t e))
    (hTask : p.run.tasks[index]? = some t) (hChange : Change cfg p.run.fired index t e)
    (hCalls : e.externals.filterMap External.caller? = [index])
    (hPool : p.pool.step .call = some pool) :
    Matched cfg queries { run := p.run.apply index t e, pool } := by
  obtain ⟨hLt, -⟩ := List.getElem?_eq_some_iff.mp hTask
  have hAdmitting := h.admitting.step hMove
  have hSound := h.sound.step hPool
  have hCallers : (p.run.apply index t e).callers = p.run.callers ++ [index] := by
    rw [callers_apply, hCalls]
  obtain ⟨hUnfired, hFires, hAhead, hQueries⟩ : p.run.fired = false ∧ e.fires = false ∧
      3 < t.distance ∧ Task.Queries ⟨t.query, e.phase⟩ := by
    rcases hChange.callers with hNone | ⟨-, hRest⟩
    · simp [hNone] at hCalls
    · exact hRest
  -- The task was before its call, so the query has not called and no work has it waiting.
  have hFresh : index ∉ p.run.callers := fun hMem => by
    obtain ⟨u, hOwn, hPast⟩ := h.past index hMem
    obtain rfl : u = t := Option.some.inj (hOwn.symm.trans hTask)
    omega
  have hNodup : (p.run.apply index t e).callers.Nodup := by
    rw [hCallers]
    exact h.callers.append (List.nodup_singleton _) (by simpa using hFresh)
  cases hPool
  let workers : List Worker := p.pool.workers ++ [⟨p.pool.called, .waiting, true⟩]
  have hAwaited : ∀ call ∈ workers.map Worker.call, ∃ i u,
      (p.run.apply index t e).callers[call]? = some i ∧
        (p.run.apply index t e).tasks[i]? = some u ∧ u.Queries := by
    intro call hMem
    rw [List.map_append, List.map_singleton, List.mem_append, List.mem_singleton] at hMem
    rcases hMem with hOld | rfl
    · obtain ⟨i, u, hCaller, hOther, hWaits⟩ := h.awaited hUnfired call hOld
      obtain ⟨hBefore, -⟩ := List.getElem?_eq_some_iff.mp hCaller
      have hDifferent : index ≠ i := by
        rintro rfl
        exact hFresh (List.mem_of_getElem? hCaller)
      refine ⟨i, u, ?_, ?_, hWaits⟩
      · rw [hCallers, List.getElem?_append_left hBefore, hCaller]
      · simpa [hDifferent] using hOther
    · refine ⟨index, _, ?_, ?_, hQueries⟩
      · simp [hCallers, h.called]
      · simp [hLt]
  refine ⟨hSound, hAdmitting, ?_, hNodup, ?_, fun _ => hAwaited, ?_⟩
  · simp [hCallers, h.called]
  · intro i hMem
    rw [hCallers, List.mem_append, List.mem_singleton] at hMem
    rcases hMem with hOld | rfl
    · obtain ⟨u, hOther, hPast⟩ := h.past i hOld
      have hDifferent : index ≠ i := fun hSame => hFresh (hSame ▸ hOld)
      exact ⟨u, by simpa [hDifferent] using hOther, hPast⟩
    · exact ⟨_, by simp [hLt], hQueries.distance.le⟩
  · have hWork := length_le_unfinished hSound.calls hNodup hAwaited
    have hPermits := hAdmitting.permits
    rw [List.length_map] at hWork
    exact max_le h.most (hWork.trans (by omega))

/-- The work of a call gets on or ends. -/
theorem work (h : Matched cfg queries p) {s : Pool.Step} {pool : Pool} (hWork : s.isWork = true)
    (hPool : p.pool.step s = some pool) : Matched cfg queries { p with pool } := by
  have hQuiet : s ≠ .call := by
    rintro rfl
    cases hWork
  obtain ⟨hCalled, hMost, hWorkers⟩ := h.sound.frame_step hPool hQuiet
  refine ⟨h.sound.step hPool, h.admitting, hCalled.trans h.called, h.callers, h.past, ?_, ?_⟩
  · exact fun hFired call hMem => h.awaited hFired call (hWorkers hMem)
  · rw [hMost]
    exact h.most

theorem step (h : Matched cfg queries p) (hHappens : Happens cfg p q) : Matched cfg queries q := by
  cases hHappens with
  | move hMove hAllows hCallers hPool => exact h.move hMove hAllows hCallers hPool
  | call hMove hTask hChange hCalls hPool => exact h.call hMove hTask hChange hCalls hPool
  | work hWork hPool => exact h.work hWork hPool

end Matched

/-! ## Runs -/

theorem run?_cons_eq_some_iff {m : Move} {rest : List Move} :
    p.run? cfg (m :: rest) = some q ↔ ∃ p₁, p.step? cfg m = some p₁ ∧ p₁.run? cfg rest = some q := by
  simp only [run?, Option.bind_eq_some_iff]

theorem Matched.run? (h : Matched cfg queries p) {moves : List Move}
    (hRun : p.run? cfg moves = some q) : Matched cfg queries q := by
  induction moves generalizing p with
  | nil =>
    cases hRun
    exact h
  | cons m rest ih =>
    obtain ⟨p₁, hStep, hRest⟩ := run?_cons_eq_some_iff.mp hRun
    exact ih (h.step (.of_step? hStep)) hRest

/-- What a run does to its pool is a run of the pool. -/
theorem exists_pool_run {moves : List Move} (hRun : p.run? cfg moves = some q) :
    ∃ steps, p.pool.run steps = some q.pool := by
  induction moves generalizing p with
  | nil =>
    cases hRun
    exact ⟨[], rfl⟩
  | cons m rest ih =>
    obtain ⟨p₁, hStep, hRest⟩ := run?_cons_eq_some_iff.mp hRun
    obtain ⟨after, hAfter⟩ := ih hRest
    have hFirst : ∃ before, p.pool.run before = some p₁.pool := by
      cases Happens.of_step? hStep with
      | move hMove hAllows hCallers hPool =>
        rcases hPool with rfl | ⟨call, hPool⟩
        · exact ⟨[], rfl⟩
        · exact ⟨[.abandon call], by rw [Pool.run_singleton, hPool]⟩
      | call hMove hTask hChange hCalls hPool => exact ⟨[.call], by rw [Pool.run_singleton, hPool]⟩
      | @work s pool hWork hPool => exact ⟨[s], by rw [Pool.run_singleton, hPool]⟩
    obtain ⟨before, hBefore⟩ := hFirst
    exact ⟨before ++ after, by rw [Pool.run_append, hBefore]; exact hAfter⟩

end PooledRun

/-! ## Conservation -/

/-- **Connections are conserved, kept apart, and no more than are needed.**
1. In every state `p` of a pool, under every interleaving, with every way in which statements and new
   connections fail, and also where callers have stopped waiting: every connection that was opened is
   in one place, which is among the idle ones or with the work of one query; no other is anywhere;
   there is one at least; and there are no more than one, or than there was work at some time before.
   Where no connection can be opened the connections stay as they are, and where no work goes on all
   of them are idle.
2. In every state of a run over a database that was opened for it, before and after the token has
   fired, the pool is in one of these states, and there are no more connections than the run may have
   queries at work. -/
theorem connections_conserved :
    (∀ steps p, Pool.initial.run steps = some p →
      let opened := 1 + steps.countP Pool.Step.opens
      (∀ c, p.places c = if c < opened then 1 else 0) ∧ (p.workers.map Worker.call).Nodup ∧
        p.connections.length = opened ∧
        (∃ before r, before <+: steps ∧ Pool.initial.run before = some r ∧
          p.connections.length ≤ max 1 r.workers.length) ∧
        (∀ call q, p.step (.failToConnect call) = some q →
          q.idle = p.idle ∧ q.held = p.held ∧ q.opened = p.opened) ∧
        (p.workers = [] → p.idle.Perm (List.range opened))) ∧
    ∀ cfg queries fired moves p, (PooledRun.init cfg queries fired).run? cfg moves = some p →
      (∃ steps, Pool.initial.run steps = some p.pool) ∧
        p.pool.connections.length ≤ max 1 cfg.maxConcurrency := by
  refine ⟨?pool, ?run⟩
  case pool =>
    intro steps p hRun opened
    have h := Pool.sound_of_run hRun
    have hOpened : p.opened = opened := Pool.opened_run Pool.sound_initial hRun
    rw [← hOpened]
    refine ⟨h.places_eq, h.calls, h.length_connections, Pool.exists_demand hRun,
      fun call q => h.failToConnect_step, fun hNone => ?_⟩
    simpa [Pool.connections, Pool.held, hNone] using h.connections
  case run =>
    intro cfg queries fired moves p hRun
    have h : PooledRun.Matched cfg queries p := (PooledRun.Matched.init fired).run? hRun
    refine ⟨PooledRun.exists_pool_run hRun, ?_⟩
    calc p.pool.connections.length = p.pool.opened := h.sound.length_connections
      _ ≤ max 1 p.pool.mostWorkers := (Nat.le_add_right _ _).trans h.sound.needed
      _ ≤ max 1 cfg.permits := max_le_max_left 1 h.most
      _ ≤ max 1 cfg.maxConcurrency := by
        rw [Settings.permits, ← max_assoc, max_self]
        exact max_le_max_left 1 (min_le_left _ _)

/-- Of two queries at work the one that finds no connection opens one.  Where the token fires during
the only query that may be at work, its work goes on over the only connection. -/
theorem connections_conserved_given_up :
    ∃ p q, Pool.initial.run
        [.call, .call, .checkOut 0, .checkOut 1, .connect 1, .finish 0, .checkIn 0] = some p ∧
      (p.places 0 = 1 ∧ p.places 1 = 1 ∧ p.connections.length = 2) ∧
      (PooledRun.init ⟨1, "web"⟩ [{}, {}] false).run? ⟨1, "web"⟩
        [.run .acquire, .run .spawn, .run (.start 0 0), .work (.checkOut 0), .run .fire,
          .run (.wake 0)] = some q ∧
      q.pool.workers = [⟨0, .querying 0, false⟩] ∧ q.pool.connections.length ≤ 1 := by
  obtain ⟨hPool, hRun⟩ := connections_conserved
  refine ⟨_, _, rfl, ?_, rfl, rfl, ?_⟩
  · obtain ⟨hPlaces, -, hLength, -⟩ := hPool
      [.call, .call, .checkOut 0, .checkOut 1, .connect 1, .finish 0, .checkIn 0] _ rfl
    exact ⟨hPlaces 0, hPlaces 1, hLength⟩
  · exact (hRun ⟨1, "web"⟩ [{}, {}] false [.run .acquire, .run .spawn, .run (.start 0 0),
      .work (.checkOut 0), .run .fire, .run (.wake 0)] _ rfl).2

end SqlMetrics.Collector
