import SqlMetrics.Collector.Report
import SqlMetrics.Proofs.Collector.Run

/-!
# Completion order

The order in which the tasks of a run end is read off its states: `State.completions` lists, move by
move, the tasks that are over after the move and were not before it.

- **One task at a time**: `endedBetween_task` says which tasks a move ends.
- **Queue**: `Completed` states that the run looks at the ended tasks in the order in which they
  ended, misses none and looks at none twice.
-/

namespace SqlMetrics.Collector

namespace State

/-! ## Tasks that end -/

/-- Whether the task with this index is over. -/
def hasEndedAt (s : State) (index : Nat) : Bool :=
  s.tasks[index]?.any Task.hasEnded

/-- The tasks that are over in the second of two states and not in the first. -/
def endedBetween (s s' : State) : List Nat :=
  (List.range s'.tasks.length).filter fun i => s'.hasEndedAt i && !s.hasEndedAt i

/-- The indices of the tasks that end in a run, in the order in which they end. -/
def completions (cfg : Settings) (s : State) : List Move → List Nat
  | [] => []
  | m :: rest =>
    match s.step? cfg m with
    | none => []
    | some s' => s.endedBetween s' ++ s'.completions cfg rest

theorem endedBetween_eq_nil {s s' : State} (h : ∀ i, s'.hasEndedAt i = s.hasEndedAt i) :
    s.endedBetween s' = [] := by
  simp [endedBetween, h]

theorem hasEndedAt_apply {s : State} {index : Nat} {t : Task} (hTask : s.tasks[index]? = some t)
    (e : TaskEffect) (i : Nat) :
    (s.apply index t e).hasEndedAt i = if i = index then e.ends else s.hasEndedAt i := by
  obtain ⟨hlt, -⟩ := List.getElem?_eq_some_iff.mp hTask
  by_cases hSame : i = index
  · subst hSame
    simp [hasEndedAt, hlt, Task.hasEnded_eq, TaskEffect.ends]
  · have hOther : index ≠ i := fun h => hSame h.symm
    simp [hasEndedAt, hSame, hOther]

theorem hasEndedAt_of_unended {s : State} {index : Nat} {t : Task}
    (hTask : s.tasks[index]? = some t) (hUnended : t.hasEnded = false) :
    s.hasEndedAt index = false := by
  simp [hasEndedAt, hTask, hUnended]

/-- A move of a task ends this task or none. -/
theorem endedBetween_task {s : State} {index : Nat} {t : Task} (hTask : s.tasks[index]? = some t)
    (hUnended : t.hasEnded = false) (e : TaskEffect) :
    s.endedBetween (s.apply index t e) = if e.ends then [index] else [] := by
  obtain ⟨hlt, -⟩ := List.getElem?_eq_some_iff.mp hTask
  have hBefore := hasEndedAt_of_unended hTask hUnended
  -- No other task changes, so the filter looks for this one index.
  have hFilter : s.endedBetween (s.apply index t e) =
      (List.range s.tasks.length).filter fun i => i == index && e.ends := by
    simp only [endedBetween, apply_tasks, List.length_set]
    refine List.filter_congr fun i _ => ?_
    rw [hasEndedAt_apply hTask]
    by_cases hSame : i = index
    · simp [hSame, hBefore]
    · simp [hSame]
  rw [hFilter]
  cases e.ends with
  | false => simp
  | true => simp [List.filter_beq, List.count_range, hlt]

/-- A move that is not about a task ends none. -/
theorem hasEndedAt_step {cfg : Settings} {s s' : State} {m : Move} (hStep : Step cfg s m s')
    (hIndex : m.index? = none) (i : Nat) : s'.hasEndedAt i = s.hasEndedAt i := by
  cases hStep with
  | @spawn q rest hHolding hPending =>
    -- The new task is not over, and neither was the place where it stands.
    simp only [hasEndedAt]
    rcases Nat.lt_trichotomy i s.tasks.length with hLess | hSame | hMore
    · rw [List.getElem?_append_left hLess]
    · subst hSame
      simp [Task.hasEnded]
    · rw [List.getElem?_eq_none (by simp; omega), List.getElem?_eq_none (Nat.le_of_lt hMore)]
  | task hSome => simp [hSome] at hIndex
  | _ => rfl

/-! ## How tasks end -/

theorem hasEndedAt_of_endError? {s : State} {i : Nat} {e : CollectorError}
    (h : s.endError? i = some e) : s.hasEndedAt i = true := by
  unfold endError? at h
  split at h
  · next hTask => simp [hasEndedAt, hTask, Task.hasEnded]
  · cases h

/-- How a task that is over ended does not change. -/
theorem endError?_step {cfg : Settings} {s s' : State} {m : Move} (hStep : Step cfg s m s')
    {i : Nat} (hEnded : s.hasEndedAt i = true) : s'.endError? i = s.endError? i := by
  cases hStep with
  | @spawn q rest hHolding hPending =>
    have hlt : i < s.tasks.length := by
      refine Nat.lt_of_not_le fun hge => ?_
      simp [hasEndedAt, List.getElem?_eq_none hge] at hEnded
    simp only [endError?, List.getElem?_append_left hlt]
  | @task _ index t e hIndex hTask hEffect =>
    have hOther : index ≠ i := by
      rintro rfl
      rw [hasEndedAt_of_unended hTask (Task.hasEnded_of_effect? hEffect)] at hEnded
      cases hEnded
    simp [endError?, hOther]
  | _ => rfl

theorem filterMap_endError?_step {cfg : Settings} {s s' : State} {m : Move}
    (hStep : Step cfg s m s') {ended : List Nat} (hEnded : ∀ i ∈ ended, s.hasEndedAt i = true) :
    ended.filterMap s'.endError? = ended.filterMap s.endError? := by
  induction ended with
  | nil => rfl
  | cons i rest ih =>
    obtain ⟨hFirst, hRest⟩ := List.forall_mem_cons.mp hEnded
    simp only [List.filterMap_cons, endError?_step hStep hFirst, ih hRest]

end State

/-! ## The queue of ended tasks -/

/-- What holds of the ended tasks, listed in the order of their ends:
1. none is listed twice;
2. those listed are those that are over;
3. the list begins with the tasks that the run has looked at, and those it has not looked at follow;
4. the run has looked at none before the admission was over;
5. it has kept the first error of those it has looked at;
6. it has noted the others in their order. -/
structure Completed (s : State) (seen ended : List Nat) : Prop where
  nodup : ended.Nodup
  mem_iff : ∀ i, i ∈ ended ↔ s.hasEndedAt i = true
  queue : ended = seen ++ s.unseen
  closed : seen ≠ [] → s.admission = .closed
  first : s.firstError = (seen.filterMap s.endError?).head?
  later : s.events.filterMap failure? = (seen.filterMap s.endError?).tail

/-- What a move of a task notes is not a failure of a query. -/
theorem Change.failures_nil {cfg : Settings} {fired : Bool} {index : Nat} {t : Task}
    {e : TaskEffect} (h : Change cfg fired index t e) : e.notes.filterMap failure? = [] := by
  cases h <;> simp [failure?, Function.comp_def]

theorem State.failures_leftover (s : State) : s.leftover.filterMap failure? = [] := by
  unfold State.leftover
  split <;> rfl

namespace Completed

variable {cfg : Settings}

theorem init (queries : List Query) (fired : Bool) :
    Completed (State.init cfg queries fired) [] [] where
  nodup := .nil
  mem_iff := by simp [State.hasEndedAt, State.init]
  queue := rfl
  closed := nofun
  first := rfl
  later := rfl

variable {s s' : State} {seen ended : List Nat}

theorem seen_ended (h : Completed s seen ended) : ∀ i ∈ seen, s.hasEndedAt i = true :=
  fun i hMem => (h.mem_iff i).mp (h.queue ▸ List.mem_append_left _ hMem)

/-- A move that is not about a task, looks at none and notes no failure keeps the list. -/
theorem keep {m : Move} (h : Completed s seen ended) (hStep : Step cfg s m s')
    (hIndex : m.index? = none) (hUnseen : s'.unseen = s.unseen)
    (hClosed : s.admission = .closed → s'.admission = .closed)
    (hFirst : s'.firstError = s.firstError)
    (hLater : s'.events.filterMap failure? = s.events.filterMap failure?) :
    Completed s' seen (ended ++ s.endedBetween s') := by
  have hSame := State.hasEndedAt_step hStep hIndex
  have hErrors := State.filterMap_endError?_step hStep h.seen_ended
  rw [State.endedBetween_eq_nil hSame, List.append_nil]
  exact
    { nodup := h.nodup
      mem_iff := fun i => by rw [hSame]; exact h.mem_iff i
      queue := by rw [hUnseen]; exact h.queue
      closed := fun hSeen => hClosed (h.closed hSeen)
      first := by rw [hFirst, hErrors]; exact h.first
      later := by rw [hLater, hErrors]; exact h.later }

/-- A move of a task puts the task at the end of the list if it ends it. -/
theorem task {m : Move} {index : Nat} {t : Task} {e : TaskEffect} (h : Completed s seen ended)
    (hIndex : m.index? = some index) (hTask : s.tasks[index]? = some t)
    (hEffect : t.effect? cfg s.fired m = some e) :
    Completed (s.apply index t e) seen (ended ++ s.endedBetween (s.apply index t e)) := by
  have hUnended := Task.hasEnded_of_effect? hEffect
  have hStep : Step cfg s m (s.apply index t e) := .task hIndex hTask hEffect
  have hErrors := State.filterMap_endError?_step hStep h.seen_ended
  -- The task could make a move, so it was not over and is not listed yet.
  have hNew : index ∉ ended := fun hMem => by
    have hBefore := (h.mem_iff index).mp hMem
    rw [State.hasEndedAt_of_unended hTask hUnended] at hBefore
    cases hBefore
  rw [State.endedBetween_task hTask hUnended]
  refine ⟨?_, fun i => ?_, ?_, h.closed, ?_, ?_⟩
  · cases e.ends with
    | false => simpa using h.nodup
    | true =>
      refine List.nodup_append.mpr ⟨h.nodup, by simp, fun i hOld j hLast => ?_⟩
      rw [List.mem_singleton.mp hLast]
      exact fun hSame => hNew (hSame ▸ hOld)
  · rw [State.hasEndedAt_apply hTask]
    by_cases hSame : i = index
    · cases e.ends <;> simp [hSame, hNew]
    · cases e.ends <;> simp [hSame, h.mem_iff]
  · rw [h.queue, List.append_assoc]
    rfl
  · rw [hErrors]
    exact h.first
  · have hNotes := (Change.of_effect? hIndex hEffect).failures_nil
    rw [hErrors, State.apply_events, List.filterMap_append, hNotes, List.append_nil]
    exact h.later

/-- The look at the next ended task keeps its error, or notes it when another one is kept. -/
theorem see {index : Nat} {rest : List Nat} (h : Completed s seen ended)
    (hClosed : s.admission = .closed) (hUnseen : s.unseen = index :: rest) :
    Completed
      { s with
        unseen := rest
        firstError := s.firstError.or (s.endError? index)
        events := s.events ++ s.laterFailure index } (seen ++ [index]) ended where
  nodup := h.nodup
  mem_iff := h.mem_iff
  queue := by rw [h.queue, hUnseen]; simp
  closed := fun _ => hClosed
  first := by
    change s.firstError.or (s.endError? index) = ((seen ++ [index]).filterMap s.endError?).head?
    rw [h.first, List.filterMap_append, List.head?_append]
    cases hError : s.endError? index <;> simp [hError]
  later := by
    change (s.events ++ s.laterFailure index).filterMap failure? =
      ((seen ++ [index]).filterMap s.endError?).tail
    -- The run notes the error exactly where another one stands before it.
    have hFirst := h.first
    rw [List.filterMap_append, List.filterMap_append, h.later]
    unfold State.laterFailure
    rw [hFirst]
    cases hErrors : seen.filterMap s.endError? with
    | nil => cases hError : s.endError? index <;> simp [hError]
    | cons e errors => cases hError : s.endError? index <;> simp [hError, failure?]

theorem step {m : Move} (h : Completed s seen ended) (hStep : Step cfg s m s') :
    ∃ seen', Completed s' seen' (ended ++ s.endedBetween s') := by
  have hKeep := h.keep hStep
  have hNone := fun hIndex => State.endedBetween_eq_nil (State.hasEndedAt_step hStep hIndex)
  cases hStep with
  | acquire hSeeking => exact ⟨seen, hKeep rfl rfl (by simp [hSeeking]) rfl rfl⟩
  | spawn hHolding => exact ⟨seen, hKeep rfl rfl (by simp [hHolding]) rfl rfl⟩
  | close =>
    refine ⟨seen, hKeep rfl rfl (fun _ => rfl) rfl ?_⟩
    rw [List.filterMap_append, State.failures_leftover, List.append_nil]
  | fire => exact ⟨seen, hKeep rfl rfl id rfl rfl⟩
  | task hIndex hTask hEffect => exact ⟨seen, h.task hIndex hTask hEffect⟩
  | @see index rest hClosed hUnseen =>
    refine ⟨seen ++ [index], ?_⟩
    rw [hNone rfl, List.append_nil]
    exact h.see hClosed hUnseen
  | finish => exact ⟨seen, hKeep rfl rfl id rfl rfl⟩

end Completed

namespace State

/-- What every step keeps while it lists the tasks it ends, every run keeps. -/
theorem completions_induction {cfg : Settings} {P : State → List Nat → Prop}
    (hStep : ∀ s m s' ended, P s ended → Step cfg s m s' → P s' (ended ++ s.endedBetween s'))
    {moves : List Move} {s s' : State} {ended : List Nat} (hRun : s.run? cfg moves = some s')
    (hStart : P s ended) : P s' (ended ++ s.completions cfg moves) := by
  -- On the moves, with both the start and the list so far arbitrary.
  induction moves generalizing s ended with
  | nil =>
    cases hRun
    simpa [completions] using hStart
  | cons m rest ih =>
    obtain ⟨s₁, hFirst, hRest⟩ := run?_cons_eq_some_iff.mp hRun
    have hNext := ih hRest (hStep s m s₁ ended hStart hFirst)
    rw [List.append_assoc] at hNext
    simpa [completions, hFirst.step?] using hNext

end State

/-- **The queue**: in every state of a run, the run has looked at a first part of the tasks that have
ended, in the order of their ends. -/
theorem Completed.of_run? {cfg : Settings} {queries : List Query} {fired : Bool}
    {moves : List Move} {s : State}
    (hRun : (State.init cfg queries fired).run? cfg moves = some s) :
    ∃ seen, Completed s seen ((State.init cfg queries fired).completions cfg moves) := by
  have hStart : ∃ seen, Completed (State.init cfg queries fired) seen [] := ⟨[], init queries fired⟩
  refine State.completions_induction (P := fun s ended => ∃ seen, Completed s seen ended) ?_ hRun
    hStart
  rintro s₁ m s₂ ended ⟨seen, hSeen⟩ hStep
  exact hSeen.step hStep

end SqlMetrics.Collector
