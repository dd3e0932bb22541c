import SqlMetrics.Proofs.Collector.Step

/-!
# Runs

A run is a list of moves, made one after another from a state.  Every interleaving of the admission,
the tasks, the firing of the token and the look at ended tasks is such a list, so what holds of the
last state of every list of moves holds whatever the order was.

- **Runs**: `State.run?`, and how runs are put together.
- **Invariants**: `State.run?_induction` lifts what one step keeps to whole runs.
- **Admitted queries**: they only grow, at their end.
- **Externals of a query**: a move of a task adds to what its own query has done, and to no other's.
-/

namespace SqlMetrics.Collector

/-- The query that does something outside. -/
def External.index : External → Nat
  | .command index _ | .call index _ | .exportBegun index _ _ | .delivered index _ _ => index

/-- What a move of a task does outside, it does for the query of the task. -/
theorem Change.externals_index {cfg : Settings} {fired : Bool} {index : Nat} {t : Task}
    {e : TaskEffect} (h : Change cfg fired index t e) : ∀ x ∈ e.externals, x.index = index := by
  cases h <;> simp [External.index]

namespace State

/-! ## Runs -/

/-- The state after a list of moves, where each of them is possible in its turn. -/
def run? (cfg : Settings) (s : State) : List Move → Option State
  | [] => some s
  | m :: rest => (s.step? cfg m).bind fun s' => s'.run? cfg rest

variable {cfg : Settings} {s s' : State}

theorem run?_cons_eq_some_iff {m : Move} {rest : List Move} :
    s.run? cfg (m :: rest) = some s' ↔ ∃ s₁, Step cfg s m s₁ ∧ s₁.run? cfg rest = some s' := by
  simp only [run?, Option.bind_eq_some_iff, step?_eq_some_iff]

theorem run?_append (before after : List Move) :
    s.run? cfg (before ++ after) = (s.run? cfg before).bind fun s₁ => s₁.run? cfg after := by
  induction before generalizing s with
  | nil => rfl
  | cons m rest ih =>
    cases hStep : s.step? cfg m with
    | none => simp [run?, hStep]
    | some s₁ => simp [run?, hStep, ih]

theorem run?_trans {s₁ : State} {before after : List Move} (hBefore : s.run? cfg before = some s₁)
    (hAfter : s₁.run? cfg after = some s') : s.run? cfg (before ++ after) = some s' := by
  rw [run?_append, hBefore]
  exact hAfter

theorem run?_singleton {m : Move} (h : Step cfg s m s') : s.run? cfg [m] = some s' := by
  simp [run?, h.step?]

/-! ## Invariants -/

/-- What every step keeps, every run keeps. -/
theorem run?_induction {P : State → Prop} (hStep : ∀ s m s', P s → Step cfg s m s' → P s')
    {moves : List Move} (hRun : s.run? cfg moves = some s') (hStart : P s) : P s' := by
  -- On the moves, with the start of the run arbitrary: the first move leads to another start.
  induction moves generalizing s with
  | nil =>
    cases hRun
    exact hStart
  | cons m rest ih =>
    obtain ⟨s₁, hFirst, hRest⟩ := run?_cons_eq_some_iff.mp hRun
    exact ih hRest (hStep s m s₁ hStart hFirst)

/-! ## Admitted queries -/

/-- The admitted queries, in the order of their admission. -/
def admitted (s : State) : List Query :=
  s.tasks.map Task.query

theorem admitted_apply {index : Nat} {t : Task} (hTask : s.tasks[index]? = some t)
    (e : TaskEffect) : (s.apply index t e).admitted = s.admitted := by
  have hQuery : s.admitted[index]? = some t.query := by simp [admitted, hTask]
  obtain ⟨hlt, heq⟩ := List.getElem?_eq_some_iff.mp hQuery
  calc (s.apply index t e).admitted = s.admitted.set index t.query := by
        simp [admitted, List.map_set]
    _ = s.admitted := by
        rw [← heq]
        exact List.set_getElem_self hlt

/-- A step admits nothing, or the query whose turn it is. -/
theorem admitted_step {m : Move} (h : Step cfg s m s') :
    (s'.admitted = s.admitted ∧ s'.pending = s.pending) ∨
      ∃ q, m = .spawn ∧ s'.admitted = s.admitted ++ [q] ∧ s.pending = q :: s'.pending := by
  cases h with
  | @spawn q rest hHolding hPending => exact .inr ⟨q, rfl, by simp [admitted], hPending⟩
  | task hIndex hTask hEffect => exact .inl ⟨admitted_apply hTask _, rfl⟩
  | _ => exact .inl ⟨rfl, rfl⟩

/-- **Admission only appends**: in a run, what is admitted stays, in its place. -/
theorem admitted_prefix_of_run? {moves : List Move} (hRun : s.run? cfg moves = some s') :
    s.admitted <+: s'.admitted := by
  refine run?_induction (P := fun s' => s.admitted <+: s'.admitted) ?_ hRun (List.prefix_refl _)
  intro s₁ m s₂ hPrefix hStep
  rcases admitted_step hStep with ⟨hSame, -⟩ | ⟨q, -, hMore, -⟩
  · rwa [hSame]
  · rw [hMore]
    exact hPrefix.trans (List.prefix_append _ _)

/-- A query has the index of its task. -/
theorem getElem?_admitted {index : Nat} {q : Query} {phase : Phase}
    (h : s.tasks[index]? = some ⟨q, phase⟩) : s.admitted[index]? = some q := by
  simp [admitted, h]

/-! ## What a query does outside -/

/-- What the query with this index has done outside, in order. -/
def externalsOf (s : State) (index : Nat) : List External :=
  s.externals.filter fun x => x.index == index

theorem externalsOf_apply {m : Move} {index : Nat} {t : Task} {e : TaskEffect}
    (hIndex : m.index? = some index) (hEffect : t.effect? cfg s.fired m = some e) (i : Nat) :
    (s.apply index t e).externalsOf i = s.externalsOf i ++ if i = index then e.externals else [] := by
  -- What the move does outside bears its own index, so the filter keeps all of it or nothing.
  have hOwn := (Change.of_effect? hIndex hEffect).externals_index
  simp only [externalsOf, apply_externals, List.filter_append]
  congr 1
  by_cases hSame : i = index
  · rw [if_pos hSame, List.filter_eq_self]
    intro x hMem
    simp [hOwn x hMem, hSame]
  · rw [if_neg hSame, List.filter_eq_nil_iff]
    intro x hMem
    simp only [hOwn x hMem, beq_iff_eq]
    exact fun h => hSame h.symm

/-- A query without a task has done no more after a move of a task than before. -/
theorem externalsOf_apply_of_le {m : Move} {index : Nat} {t : Task} {e : TaskEffect}
    (hIndex : m.index? = some index) (hTask : s.tasks[index]? = some t)
    (hEffect : t.effect? cfg s.fired m = some e) {i : Nat}
    (hBeyond : (s.apply index t e).tasks.length ≤ i) :
    (s.apply index t e).externalsOf i = s.externalsOf i := by
  obtain ⟨hlt, -⟩ := List.getElem?_eq_some_iff.mp hTask
  rw [apply_tasks, List.length_set] at hBeyond
  rw [externalsOf_apply hIndex hEffect, if_neg (by omega), List.append_nil]

/-- What holds of every task with what its query has done, a move of a task keeps if it keeps it for
that task. -/
theorem forall_task_apply {P : Nat → Task → List External → Prop} {m : Move} {index : Nat}
    {t : Task} {e : TaskEffect} (hIndex : m.index? = some index)
    (hTask : s.tasks[index]? = some t) (hEffect : t.effect? cfg s.fired m = some e)
    (hOld : ∀ i u, s.tasks[i]? = some u → P i u (s.externalsOf i))
    (hOwn : P index ⟨t.query, e.phase⟩ (s.externalsOf index ++ e.externals)) :
    ∀ i u, (s.apply index t e).tasks[i]? = some u →
      P i u ((s.apply index t e).externalsOf i) := by
  intro i u hTask'
  rw [externalsOf_apply hIndex hEffect]
  rcases getElem?_apply hTask hTask' with ⟨rfl, rfl⟩ | ⟨hSame, hBefore⟩
  · rw [if_pos rfl]
    exact hOwn
  · rw [if_neg hSame, List.append_nil]
    exact hOld i u hBefore

/-! ## The token -/

/-- The token stays fired. -/
theorem fired_step {m : Move} (h : Step cfg s m s') (hFired : s.fired = true) :
    s'.fired = true := by
  cases h with
  | task => simp [hFired]
  | fire => rfl
  | _ => exact hFired

theorem fired_run? {moves : List Move} (hRun : s.run? cfg moves = some s')
    (hFired : s.fired = true) : s'.fired = true :=
  run?_induction (P := fun s => s.fired = true) (fun _ _ _ h hStep => fired_step hStep h) hRun hFired

end State

end SqlMetrics.Collector
