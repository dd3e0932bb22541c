import SqlMetrics.Collector.Report
import SqlMetrics.Proofs.Collector.Accounting
import SqlMetrics.Proofs.Collector.Schedule

/-!
# Whose error it is

A run that fails reports the error of one of its queries, or that it was cancelled.

- **Reports**: a report gives only errors that the run has had (`mem_orderCancelled`).
- **Blame**: these are errors that tasks ended with (`cancelled_or_endError?`), and an error that
  names a query is the one that the task of this very query ended with (`exists_task_to_blame`).
-/

namespace SqlMetrics.Collector

variable {cfg : Settings} {queries : List Query} {fired : Bool} {moves : List Move} {s : State}

/-! ## Reports -/

theorem cancelledIndex?_eq_some_iff {e : CollectorError} {index : Nat} :
    cancelledIndex? e = some index ↔ e = .query index .cancelled := by
  unfold cancelledIndex?
  split <;> simp_all

theorem mem_placeCancelled {indices : List Nat} {errors : List CollectorError}
    {e : CollectorError} (h : e ∈ placeCancelled indices errors) :
    e ∈ errors ∨ ∃ index ∈ indices, e = .query index .cancelled := by
  -- On the places: one with a cancelled query takes the next of the given indices, any other keeps
  -- its error.
  induction indices, errors using placeCancelled.induct with
  | case1 indices => simp [placeCancelled] at h
  | case2 errors hErrors =>
    rw [placeCancelled] at h
    · exact .inl h
    · exact hErrors
  | case3 index rest first errors old hOld ih =>
    rw [placeCancelled, hOld] at h
    rcases List.mem_cons.mp h with rfl | hRest
    · exact .inr ⟨index, List.mem_cons_self, rfl⟩
    · refine (ih hRest).imp (List.mem_cons_of_mem _) ?_
      rintro ⟨other, hMem, rfl⟩
      exact ⟨other, List.mem_cons_of_mem _ hMem, rfl⟩
  | case4 index rest first errors hOld ih =>
    rw [placeCancelled, hOld] at h
    rcases List.mem_cons.mp h with rfl | hRest
    · exact .inl List.mem_cons_self
    · exact (ih hRest).imp_left (List.mem_cons_of_mem _)

/-- Putting the cancelled queries in order brings in no error. -/
theorem mem_orderCancelled {errors : List CollectorError} {e : CollectorError}
    (h : e ∈ orderCancelled errors) : e ∈ errors := by
  rcases mem_placeCancelled h with hOld | ⟨index, hMem, rfl⟩
  · exact hOld
  · rw [List.mem_mergeSort, List.mem_filterMap] at hMem
    obtain ⟨e, hError, hIndex⟩ := hMem
    rwa [← cancelledIndex?_eq_some_iff.mp hIndex]

/-- A report gives one of the errors of the run. -/
theorem Timeline.exists_error_of_report {t : Timeline} {e : CollectorError}
    (h : t.report.result = some (.error e)) :
    ∃ first, t.state.returned = some (.error first) ∧
      e ∈ first :: t.state.events.filterMap failure? := by
  unfold report at h
  cases hReturned : t.state.returned with
  | none => simp [hReturned] at h
  | some r =>
    cases r with
    | ok u => simp [hReturned] at h
    | error first =>
      refine ⟨first, rfl, ?_⟩
      simp only [hReturned] at h
      split at h
      · next e' rest hOrder =>
        obtain rfl : e' = e := by simpa using h
        exact mem_orderCancelled (hOrder ▸ List.mem_cons_self)
      · obtain rfl : first = e := by simpa [hReturned] using h
        exact List.mem_cons_self

/-! ## Blame -/

/-- The errors of a run that has failed are those that its tasks ended with, unless it was cancelled
before they were all admitted and none of them failed. -/
theorem cancelled_or_endError? (hRun : (State.init cfg queries fired).run? cfg moves = some s)
    {first e : CollectorError} (hReturned : s.returned = some (.error first))
    (hMem : e ∈ first :: s.events.filterMap failure?) :
    e = .cancelled ∨ ∃ i, s.endError? i = some e := by
  obtain ⟨hCompleted, -⟩ := Completed.of_returned hRun hReturned
  obtain ⟨-, -, -, hVerdict⟩ := Returned.of_run? hRun _ hReturned
  -- The run keeps the first of the errors that tasks ended with, and notes the others.
  rw [hCompleted.later] at hMem
  rw [State.verdict, hCompleted.first] at hVerdict
  cases hErrors : (State.completions cfg (State.init cfg queries fired) moves).filterMap
      s.endError? with
  | nil =>
    rw [hErrors] at hMem hVerdict
    obtain rfl : e = first := by simpa using hMem
    left
    by_cases hPending : s.pending = []
    · simp [hPending] at hVerdict
    · simpa [hPending] using hVerdict
  | cons error rest =>
    rw [hErrors] at hMem hVerdict
    obtain rfl : first = error := by simpa using hVerdict
    have hEnded : e ∈ (State.completions cfg (State.init cfg queries fired) moves).filterMap
        s.endError? := by
      rw [hErrors]
      exact hMem
    obtain ⟨i, -, hError⟩ := List.mem_filterMap.mp hEnded
    exact .inr ⟨i, hError⟩

/-- An error that names a query, and that a task ended with, is of the task of this query. -/
theorem exists_task_of_endError? (hRun : (State.init cfg queries fired).run? cfg moves = some s)
    {i index : Nat} {cause : QueryError} (hError : s.endError? i = some (.query index cause)) :
    ∃ q, queries[index]? = some q ∧
      s.tasks[index]? = some ⟨q, .ended (some (.query index cause))⟩ := by
  have hAdmitting := Admitting.of_run? hRun
  cases hTask : s.tasks[i]? with
  | none => simp [State.endError?, hTask] at hError
  | some t =>
    obtain ⟨q, phase⟩ := t
    have hQuery : queries[i]? = some q := hAdmitting.getElem?_queries hTask
    have hConcerns := (Exported.of_run? hRun).begun_ended hAdmitting hQuery
      (State.hasEndedAt_of_endError? hError)
    rw [hError] at hConcerns
    -- The error of a task names its own index, if it names any.
    obtain rfl : index = i := hConcerns
    refine ⟨q, hQuery, ?_⟩
    cases phase with
    | ended error =>
      obtain rfl : error = some (.query index cause) := by
        simpa [State.endError?, hTask] using hError
      exact hTask
    | spawned | executing | exporting => simp [State.endError?, hTask] at hError

/-- **Blame**: a run that fails with an error that names a query fails with the one that the task of
this query ended with. -/
theorem exists_task_to_blame (hRun : (State.init cfg queries fired).run? cfg moves = some s)
    {first : CollectorError} {index : Nat} {cause : QueryError}
    (hReturned : s.returned = some (.error first))
    (hMem : .query index cause ∈ first :: s.events.filterMap failure?) :
    ∃ q, queries[index]? = some q ∧
      s.tasks[index]? = some ⟨q, .ended (some (.query index cause))⟩ := by
  rcases cancelled_or_endError? hRun hReturned hMem with hCancelled | ⟨i, hError⟩
  · cases hCancelled
  · exact exists_task_of_endError? hRun hError

/-- An error of a run that names a query is the one that the task of this query ended with. -/
theorem Timeline.exists_task_of_report {w : World} {index : Nat} {cause : QueryError}
    (hResult : (run cfg w queries).report.result = some (.error (.query index cause))) :
    ∃ q, queries[index]? = some q ∧
      (run cfg w queries).state.tasks[index]? =
        some ⟨q, .ended (some (.query index cause))⟩ := by
  obtain ⟨first, hReturned, hMem⟩ := exists_error_of_report hResult
  obtain ⟨moves, hRun⟩ := (Scheduled.init.runFor _ : Scheduled cfg w queries _).reached
  exact exists_task_to_blame hRun hReturned hMem

end SqlMetrics.Collector
