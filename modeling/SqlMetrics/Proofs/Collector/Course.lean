import SqlMetrics.Proofs.Collector.Termination

/-!
# Runs whose tasks take fixed times

When nothing that a run can do by itself is put off, the queries that have started at a moment are
fixed by those that have ended: the next one starts as soon as a permit is free, and no sooner.

- **Admission by ends**: `hasStartedAt_iff` says this of one state, with the ended queries counted
  below the index (`State.endedBelow`).
- **Courses**: a `Course` is a run in which the task of a query takes a fixed time.
- **More permits**: by induction on the index, a query that has started with few permits has started
  with more of them too (`Course.started_of_permits_le`), so it ends no later, and the run returns
  no later (`Course.no_later_of_permits_le`).  The permits of the two runs are never matched one by
  one: a task may leave its permit to another query than in the other run.
-/

namespace SqlMetrics.Collector

theorem Admitting.length_tasks_le {cfg : Settings} {queries : List Query} {s : State}
    (h : Admitting cfg queries s) : s.tasks.length ≤ queries.length := by
  have hSplit := congrArg List.length h.queries
  rw [List.length_append, State.admitted, List.length_map] at hSplit
  omega

namespace State

variable {cfg : Settings} {queries : List Query} {fired : Bool} {moves : List Move} {s s' : State}

/-! ## Started and ended queries -/

/-- Whether the query with this index has started: its task is there and has run. -/
def hasStartedAt (s : State) (index : Nat) : Bool :=
  s.tasks[index]?.any fun t => match t.phase with
    | .spawned => false
    | .executing _ | .exporting _ | .ended _ => true

/-- How many queries with an index below this one have ended. -/
def endedBelow (s : State) (index : Nat) : Nat :=
  (s.tasks.take index).countP Task.hasEnded

theorem hasStartedAt_eq_true {index : Nat} :
    s.hasStartedAt index = true ↔ ∃ t, s.tasks[index]? = some t ∧ t.phase ≠ .spawned := by
  unfold hasStartedAt
  cases s.tasks[index]? with
  | none => simp
  | some t =>
    obtain ⟨q, phase⟩ := t
    cases phase <;> simp

theorem hasEndedAt_eq_true {index : Nat} :
    s.hasEndedAt index = true ↔ ∃ t, s.tasks[index]? = some t ∧ t.hasEnded = true := by
  unfold hasEndedAt
  cases s.tasks[index]? <;> simp

theorem lt_of_hasStartedAt {index : Nat} (h : s.hasStartedAt index = true) :
    index < s.tasks.length := by
  obtain ⟨t, hTask, -⟩ := hasStartedAt_eq_true.mp h
  exact (List.getElem?_eq_some_iff.mp hTask).1

theorem endedBelow_succ (s : State) (index : Nat) :
    s.endedBelow (index + 1) = s.endedBelow index + (s.hasEndedAt index).toNat := by
  unfold endedBelow hasEndedAt
  rw [List.take_add_one, List.countP_append]
  cases s.tasks[index]? with
  | none => rfl
  | some t => cases hEnded : t.hasEnded <;> simp [hEnded]

/-- The count grows with the ended queries. -/
theorem endedBelow_le {index : Nat}
    (h : ∀ i < index, s.hasEndedAt i = true → s'.hasEndedAt i = true) :
    s.endedBelow index ≤ s'.endedBelow index := by
  induction index with
  | zero => simp [endedBelow]
  | succ index ih =>
    have hBelow := ih fun i hLess => h i (by omega)
    have hHere : (s.hasEndedAt index).toNat ≤ (s'.hasEndedAt index).toNat := by
      cases hEnded : s.hasEndedAt index with
      | false => exact Nat.zero_le _
      | true => simp [h index (Nat.lt_succ_self _) hEnded]
    rw [endedBelow_succ, endedBelow_succ]
    omega

/-- From the number of the tasks on, all of them are counted. -/
theorem endedBelow_add_unfinished {index : Nat} (h : s.tasks.length ≤ index) :
    s.endedBelow index + s.unfinished = s.tasks.length := by
  have hSplit := List.length_eq_countP_add_countP Task.hasEnded (l := s.tasks)
  simp only [Bool.not_eq_true, Bool.decide_eq_false] at hSplit
  rw [endedBelow, List.take_of_length_le h, hSplit, unfinished]

/-- A query that has ended stays so. -/
theorem hasEndedAt_of_step {m : Move} (hStep : Step cfg s m s') {index : Nat}
    (h : s.hasEndedAt index = true) : s'.hasEndedAt index = true := by
  cases hIndex : m.index? with
  | none => rwa [hasEndedAt_step hStep hIndex]
  | some i =>
    cases hStep with
    | @task _ i t e hSome hTask hEffect =>
      rw [hasEndedAt_apply hTask]
      by_cases hSame : index = i
      · subst hSame
        rw [hasEndedAt_of_unended hTask (Task.hasEnded_of_effect? hEffect)] at h
        cases h
      · rwa [if_neg hSame]
    | _ => cases hIndex

/-- A query that has started stays so. -/
theorem hasStartedAt_of_step {m : Move} (hStep : Step cfg s m s') {index : Nat}
    (h : s.hasStartedAt index = true) : s'.hasStartedAt index = true := by
  obtain ⟨t, hTask, hPhase⟩ := hasStartedAt_eq_true.mp h
  refine hasStartedAt_eq_true.mpr ?_
  cases hStep with
  | spawn =>
    have hlt := (List.getElem?_eq_some_iff.mp hTask).1
    exact ⟨t, by rw [List.getElem?_append_left hlt, hTask], hPhase⟩
  | @task _ i u e hIndex hSome hEffect =>
    by_cases hSame : i = index
    · subst hSame
      have hlt := (List.getElem?_eq_some_iff.mp hTask).1
      exact ⟨⟨u.query, e.phase⟩, by simp [hlt], Task.phase_ne_spawned hIndex hEffect⟩
    · exact ⟨t, by simp [hSame, hTask], hPhase⟩
  | _ => exact ⟨t, hTask, hPhase⟩

/-! ## Admission by ends -/

/-- **A query is admitted only when enough of those before it have ended** to leave it a permit. -/
theorem lt_permits_add_endedBelow (hRun : (State.init cfg queries fired).run? cfg moves = some s) :
    ∀ i < s.tasks.length, i < cfg.permits + s.endedBelow i := by
  have hBoth : Admitting cfg queries s ∧
      ∀ i < s.tasks.length, i < cfg.permits + s.endedBelow i := by
    refine run?_induction (P := fun s => Admitting cfg queries s ∧
      ∀ i < s.tasks.length, i < cfg.permits + s.endedBelow i) ?_ hRun ⟨.init fired, by simp [init]⟩
    intro s m s' hOld hStep
    obtain ⟨hAdmitting, hWindow⟩ := hOld
    refine ⟨hAdmitting.step hStep, fun i hlt => ?_⟩
    have hGrows : s.endedBelow i ≤ s'.endedBelow i :=
      endedBelow_le fun j _ => hasEndedAt_of_step hStep
    by_cases hBefore : i < s.tasks.length
    · have hOldBound := hWindow i hBefore
      omega
    · -- The query is the one that this step admits, with the permit in the hand of the loop.
      cases hStep with
      | spawn hHolding hPending =>
        have hCount := endedBelow_add_unfinished (Nat.le_of_not_lt hBefore)
        have hPermits := hAdmitting.permits
        simp only [inHand, hHolding, if_true] at hPermits
        simp only [List.length_append, List.length_singleton] at hlt
        omega
      | task => exact absurd (by simpa using hlt) hBefore
      | _ => exact absurd hlt hBefore
  exact hBoth.2

/-- In a quiet state every task that is there has run. -/
theorem Quiet.hasStartedAt_iff (h : s.Quiet cfg) {index : Nat} :
    s.hasStartedAt index = true ↔ index < s.tasks.length := by
  refine ⟨lt_of_hasStartedAt, fun hlt => hasStartedAt_eq_true.mpr ?_⟩
  refine ⟨_, List.getElem?_eq_getElem hlt, fun hSpawned => ?_⟩
  -- A task that has not run could start now.
  obtain ⟨e, hEffect⟩ : ∃ e, s.tasks[index].effect? cfg s.fired (.start index 0) = some e := by
    generalize s.tasks[index] = t at hSpawned
    obtain ⟨q, phase⟩ := t
    obtain rfl : phase = .spawned := hSpawned
    exact ⟨_, rfl⟩
  have hOwn : (Move.start index 0).IsOwn 0 := rfl
  exact h.not_step hOwn (.task rfl (List.getElem?_eq_getElem hlt) hEffect)

/-- **In a quiet state of a run, a query has started just if enough of those before it have ended**
to leave it a permit. -/
theorem Quiet.hasStartedAt_iff_endedBelow (h : s.Quiet cfg)
    (hRun : (State.init cfg queries fired).run? cfg moves = some s) (hUnfired : s.fired = false)
    {index : Nat} (hIndex : index < queries.length) :
    s.hasStartedAt index = true ↔ index < cfg.permits + s.endedBelow index := by
  rw [h.hasStartedAt_iff]
  refine ⟨lt_permits_add_endedBelow hRun index, fun hEnough => ?_⟩
  refine Nat.lt_of_not_le fun hLater => ?_
  have hAdmitting := Admitting.of_run? hRun
  -- The query is still pending, so the loop would go on if there were a permit.
  have hPending : s.pending ≠ [] := by
    rw [Ne, hAdmitting.pending_eq_nil_iff, Decidable.not_not, admitted, List.length_map]
    omega
  have hStuck : ¬ s.CanAdmit cfg := by
    rintro ⟨m, s', hMove, hSome⟩
    have hOwn : m.IsOwn 0 := by
      simp only [List.mem_cons, List.not_mem_nil, or_false] at hMove
      rcases hMove with rfl | rfl | rfl <;> trivial
    exact h.not_step hOwn (step?_eq_some_iff.mp hSome)
  obtain ⟨hFree, hHand⟩ := hAdmitting.free_eq_zero hUnfired hPending hStuck
  have hPermits := hAdmitting.permits
  have hCount := endedBelow_add_unfinished hLater
  omega

/-- **In a quiet state, a run has returned just if all its queries have ended.** -/
theorem Quiet.returned_iff (h : s.Quiet cfg)
    (hRun : (State.init cfg queries fired).run? cfg moves = some s) (hUnfired : s.fired = false) :
    s.returned.isSome = true ↔ ∀ i < queries.length, s.hasEndedAt i = true := by
  have hAdmitting := Admitting.of_run? hRun
  constructor
  · intro hReturned i hIndex
    obtain ⟨r, hSome⟩ := Option.isSome_iff_exists.mp hReturned
    obtain ⟨hClosed, -, hEnded, -⟩ := Returned.of_run? hRun r hSome
    have hAll : ¬ s.admitted.length < queries.length := by
      refine hAdmitting.pending_eq_nil_iff.mp ((hAdmitting.closed hClosed).resolve_right ?_)
      simp [hUnfired]
    have hlt : i < s.tasks.length := by
      rw [admitted, List.length_map] at hAll
      omega
    refine hasEndedAt_eq_true.mpr ⟨_, List.getElem?_eq_getElem hlt, ?_⟩
    exact List.all_eq_true.mp hEnded _ (List.getElem_mem hlt)
  · intro hEnded
    cases hReturned : s.returned with
    | some r => rfl
    | none =>
      exfalso
      rcases not_stuck hRun hReturned with hOwn | ⟨-, x, i, t, hTask, hAwaited⟩
      · obtain ⟨m, s', hIsOwn, hStep⟩ := hOwn 0
        exact h.not_step hIsOwn (step?_eq_some_iff.mp hStep)
      · -- A task that waits for something has not ended.
        have hIndex : i < queries.length :=
          Nat.lt_of_lt_of_le (List.getElem?_eq_some_iff.mp hTask).1 hAdmitting.length_tasks_le
        have hAt := hEnded i hIndex
        rw [hasEndedAt_of_unended hTask (hasEnded_of_awaited? hAwaited)] at hAt
        cases hAt

end State

/-! ## Courses -/

/-- A run in which the task of each query takes a fixed time, by its states at the ends of moments:
1. the states come one after another in one run;
2. the run does at once what it can do by itself: it starts a query as soon as a permit is free, and
   looks at the ended tasks as soon as the admission is over;
3. the token does not fire;
4. a task has ended just if it started so long ago as it takes. -/
structure Course (cfg : Settings) (queries : List Query) (duration : Nat → Nat) where
  state : Nat → State
  begins : ∃ moves, (State.init cfg queries false).run? cfg moves = some (state 0)
  goesOn : ∀ time, ∃ moves, (state time).run? cfg moves = some (state (time + 1))
  quiet : ∀ time, (state time).Quiet cfg
  unfired : ∀ time, (state time).fired = false
  ended_iff : ∀ i time, (state time).hasEndedAt i = true ↔
    ∃ start, start + duration i ≤ time ∧ (state start).hasStartedAt i = true

namespace Course

variable {cfg cfg' : Settings} {queries : List Query} {duration : Nat → Nat}

theorem reached (c : Course cfg queries duration) (time : Nat) :
    ∃ moves, (State.init cfg queries false).run? cfg moves = some (c.state time) := by
  induction time with
  | zero => exact c.begins
  | succ time ih =>
    obtain ⟨before, hBefore⟩ := ih
    obtain ⟨after, hAfter⟩ := c.goesOn time
    exact ⟨before ++ after, State.run?_trans hBefore hAfter⟩

theorem hasStartedAt_iff (c : Course cfg queries duration) (time : Nat) {index : Nat}
    (hIndex : index < queries.length) :
    (c.state time).hasStartedAt index = true ↔
      index < cfg.permits + (c.state time).endedBelow index := by
  obtain ⟨moves, hRun⟩ := c.reached time
  exact (c.quiet time).hasStartedAt_iff_endedBelow hRun (c.unfired time) hIndex

theorem lt_of_hasStartedAt (c : Course cfg queries duration) {time index : Nat}
    (h : (c.state time).hasStartedAt index = true) : index < queries.length := by
  obtain ⟨moves, hRun⟩ := c.reached time
  exact Nat.lt_of_lt_of_le (State.lt_of_hasStartedAt h) (Admitting.of_run? hRun).length_tasks_le

theorem returned_iff (c : Course cfg queries duration) (time : Nat) :
    (c.state time).returned.isSome = true ↔
      ∀ i < queries.length, (c.state time).hasEndedAt i = true := by
  obtain ⟨moves, hRun⟩ := c.reached time
  exact (c.quiet time).returned_iff hRun (c.unfired time)

/-- A query that started earlier ends earlier, since its task takes the same time. -/
theorem ended_of_started {slow : Course cfg queries duration} {fast : Course cfg' queries duration}
    {index : Nat} (hStarted : ∀ time, (slow.state time).hasStartedAt index = true →
      (fast.state time).hasStartedAt index = true) {time : Nat}
    (h : (slow.state time).hasEndedAt index = true) :
    (fast.state time).hasEndedAt index = true := by
  obtain ⟨start, hLong, hAt⟩ := (slow.ended_iff index time).mp h
  exact (fast.ended_iff index time).mpr ⟨start, hLong, hStarted start hAt⟩

/-- **With more permits no query starts later.** -/
theorem started_of_permits_le (slow : Course cfg queries duration)
    (fast : Course cfg' queries duration) (hPermits : cfg.permits ≤ cfg'.permits) (index : Nat) :
    ∀ time, (slow.state time).hasStartedAt index = true →
      (fast.state time).hasStartedAt index = true := by
  -- On the index: those before it have started no later, so they have ended no later.
  induction index using Nat.strongRecOn with
  | ind index ih =>
    intro time hStarted
    have hIndex := slow.lt_of_hasStartedAt hStarted
    have hFew := (slow.hasStartedAt_iff time hIndex).mp hStarted
    have hMore : (slow.state time).endedBelow index ≤ (fast.state time).endedBelow index :=
      State.endedBelow_le fun i hLess hEnded => ended_of_started (ih i hLess) hEnded
    exact (fast.hasStartedAt_iff time hIndex).mpr (by omega)

/-- **With more permits no query starts later, none ends later, and the run returns no later.** -/
theorem no_later_of_permits_le (slow : Course cfg queries duration)
    (fast : Course cfg' queries duration) (hPermits : cfg.permits ≤ cfg'.permits) (time : Nat) :
    (∀ i, (slow.state time).hasStartedAt i = true → (fast.state time).hasStartedAt i = true) ∧
    (∀ i, (slow.state time).hasEndedAt i = true → (fast.state time).hasEndedAt i = true) ∧
    ((slow.state time).returned.isSome = true → (fast.state time).returned.isSome = true) := by
  have hStarted (i : Nat) := slow.started_of_permits_le fast hPermits i
  have hEnded (i : Nat) (h : (slow.state time).hasEndedAt i = true) :
      (fast.state time).hasEndedAt i = true := ended_of_started (hStarted i) h
  refine ⟨fun i => hStarted i time, hEnded, fun hReturned => ?_⟩
  refine (fast.returned_iff time).mpr fun i hIndex => hEnded i ?_
  exact (slow.returned_iff time).mp hReturned i hIndex

end Course

end SqlMetrics.Collector
