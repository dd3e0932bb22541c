import SqlMetrics.Collector.Timeline
import SqlMetrics.Proofs.Collector.Permits

/-!
# Progress

A run makes finitely many moves, and until it has returned it is never stuck: either it can go on by
itself, or a task waits for an answer from outside.

- **Measure**: every step makes `State.remaining` smaller (`remaining_step`).
- **Progress**: `exists_step` gives the next step of a run that has not returned.
- **Completion**: under a policy that always leaves a move, every run can be completed
  (`exists_return`).
-/

namespace SqlMetrics.Collector

/-! ## Measure -/

/-- The distances of tasks, together. -/
def totalDistance : List Task → Nat
  | [] => 0
  | t :: rest => t.distance + totalDistance rest

theorem totalDistance_append (l₁ l₂ : List Task) :
    totalDistance (l₁ ++ l₂) = totalDistance l₁ + totalDistance l₂ := by
  induction l₁ with
  | nil => simp [totalDistance]
  | cons t rest ih => simp [totalDistance, ih, Nat.add_assoc]

theorem totalDistance_set {l : List Task} {i : Nat} {t : Task} (h : l[i]? = some t) (u : Task) :
    totalDistance (l.set i u) + t.distance = totalDistance l + u.distance := by
  induction l generalizing i with
  | nil => simp at h
  | cons first rest ih =>
    cases i with
    | zero =>
      simp only [List.getElem?_cons_zero, Option.some.injEq] at h
      simp only [List.set_cons_zero, totalDistance, h]
      omega
    | succ i =>
      have hRest := ih (i := i) (by simpa using h)
      simp only [List.set_cons_succ, totalDistance]
      omega

/-- How many moves queries are from the ends of their tasks, at most. -/
def pendingDistance : List Query → Nat
  | [] => 0
  | q :: rest => q.params.length + 7 + pendingDistance rest

/-- How many moves the admission loop makes beside those for the pending queries, at most. -/
def Admission.distance : Admission → Nat
  | .seeking => 2
  | .holding => 1
  | .closed => 0

namespace State

/-- How many moves a run still makes, at most. -/
def remaining (s : State) : Nat :=
  totalDistance s.tasks + pendingDistance s.pending + s.admission.distance + s.unseen.length +
    (!s.fired).toNat + s.returned.isNone.toNat

/-- **Every step brings a run closer to its end.** -/
theorem remaining_step {cfg : Settings} {s s' : State} {m : Move} (h : Step cfg s m s') :
    s'.remaining < s.remaining := by
  cases h with
  | acquire hSeeking hPending hFired hFree =>
    simp only [remaining, hSeeking, Admission.distance]
    omega
  | spawn hHolding hPending =>
    -- A pending query counts two more than its task, for the two moves of its admission.
    simp only [remaining, hHolding, hPending, Admission.distance, pendingDistance,
      totalDistance_append, totalDistance, Task.distance]
    omega
  | close hSeeking hDone =>
    simp only [remaining, hSeeking, Admission.distance]
    omega
  | fire hFired =>
    simp only [remaining, hFired, Bool.not_false, Bool.not_true, Bool.toNat_true, Bool.toNat_false]
    omega
  | @task _ index t e hIndex hTask hEffect =>
    have hUnended := Task.hasEnded_of_effect? hEffect
    have hSet := totalDistance_set hTask ⟨t.query, e.phase⟩
    have hUnseen : (s.apply index t e).unseen.length = s.unseen.length + e.ends.toNat := by
      cases hEnds : e.ends <;> simp [apply, hEnds]
    simp only [remaining, hUnseen, apply_admission, apply_pending, apply_returned, apply_tasks,
      apply_fired]
    rcases (Change.of_effect? hIndex hEffect).distance_lt hUnended with hLess | ⟨hOld, rfl⟩
    · have hFired : (!(s.fired || e.fires)).toNat ≤ (!s.fired).toNat := by
        cases s.fired <;> cases e.fires <;> decide
      omega
    · -- The move only fires the token, and this it can do once.
      have hSame : totalDistance (s.tasks.set index ⟨t.query, t.phase⟩) =
          totalDistance s.tasks := Nat.add_right_cancel hSet
      have hEnds : TaskEffect.ends ⟨[], [], true, t.phase⟩ = false :=
        (Task.hasEnded_eq t).symm.trans hUnended
      simp only [hOld, hEnds, Bool.or_true, Bool.not_true, Bool.not_false, Bool.toNat_true,
        Bool.toNat_false]
      omega
  | see hClosed hUnseen =>
    simp only [remaining, hUnseen, List.length_cons]
    omega
  | finish hClosed hUnseen hEnded hReturned =>
    simp only [remaining, hReturned, Option.isNone_some, Option.isNone_none, Bool.toNat_true,
      Bool.toNat_false]
    omega

theorem remaining_run? {cfg : Settings} {s s' : State} {moves : List Move}
    (hRun : s.run? cfg moves = some s') : moves.length + s'.remaining ≤ s.remaining := by
  induction moves generalizing s with
  | nil =>
    cases hRun
    simp
  | cons m rest ih =>
    obtain ⟨s₁, hFirst, hRest⟩ := run?_cons_eq_some_iff.mp hRun
    have hLess := remaining_step hFirst
    have hTail := ih hRest
    rw [List.length_cons]
    omega

end State

/-! ## Phases of waiting tasks -/

/-- A task that executes its query waits for a command or for the data source: an execution that is
done has been turned into an export or an end. -/
def Phase.Stable (phase : Phase) : Prop :=
  ∀ x, phase ≠ .executing (.finished x)

theorem Change.stable {cfg : Settings} {fired : Bool} {index : Nat} {t : Task} {e : TaskEffect}
    (h : Change cfg fired index t e) (hStable : t.phase.Stable) : e.phase.Stable := by
  cases h with
  | interrupted => exact hStable
  | command | call | exporting | delivered | failed =>
    intro x hSame
    cases hSame

namespace State

/-- Every task is in a phase in which it can be met between two moves. -/
def Stable (s : State) : Prop :=
  ∀ t ∈ s.tasks, t.phase.Stable

theorem stable_step {cfg : Settings} {s s' : State} {m : Move} (h : s.Stable)
    (hStep : Step cfg s m s') : s'.Stable := by
  cases hStep with
  | spawn hHolding hPending =>
    intro t hMem
    rcases List.mem_append.mp hMem with hOld | hNew
    · exact h t hOld
    · rw [List.mem_singleton.mp hNew]
      nofun
  | task hIndex hTask hEffect =>
    intro t hMem
    rcases List.mem_or_eq_of_mem_set hMem with hOld | rfl
    · exact h t hOld
    · exact (Change.of_effect? hIndex hEffect).stable (h _ (List.mem_of_getElem? hTask))
  | _ => exact h

theorem stable_of_run? {cfg : Settings} {queries : List Query} {fired : Bool}
    {moves : List Move} {s : State} (hRun : (State.init cfg queries fired).run? cfg moves = some s) :
    s.Stable :=
  run?_induction (P := Stable) (fun _ _ _ => stable_step) hRun
    fun _ hMem => absurd hMem List.not_mem_nil

end State

/-! ## Progress -/

/-- Whether a run can make a move without an answer from outside, when the clock reads `now`. -/
def Move.IsOwn (now : Int64) : Move → Prop
  | .acquire | .spawn | .close | .wake _ | .see | .finish => True
  | .start _ now' => now' = now
  | .fire | .commandEnds _ _ | .sourceReplies _ _ | .exportReplies _ _ => False

/-- A task that is not over can start or, once the token has fired, be woken; else it waits. -/
theorem Task.exists_own_effect {cfg : Settings} {fired : Bool} {t : Task} (index : Nat)
    (now : Int64) (hUnended : t.hasEnded = false) :
    (∃ m e, m.IsOwn now ∧ m.index? = some index ∧ t.effect? cfg fired m = some e) ∨
      (fired = false ∧ Timeline.isWaiting t = true) := by
  obtain ⟨q, phase⟩ := t
  cases phase with
  | spawned => exact .inl ⟨.start index now, _, rfl, rfl, rfl⟩
  | executing x =>
    cases fired with
    | true => exact .inl ⟨.wake index, _, trivial, rfl, rfl⟩
    | false => exact .inr ⟨rfl, rfl⟩
  | exporting points =>
    cases fired with
    | true => exact .inl ⟨.wake index, _, trivial, rfl, rfl⟩
    | false => exact .inr ⟨rfl, rfl⟩
  | ended error => cases hUnended

/-- A task that waits, waits for a command, for the data source or for the exporter. -/
theorem Task.waiting_cases {t : Task} (hWaits : Timeline.isWaiting t = true)
    (hStable : t.phase.Stable) :
    (∃ now values command rest, t.phase = .executing (.evaluating now values command rest)) ∨
      (∃ now params, t.phase = .executing (.querying now params)) ∨
        ∃ points, t.phase = .exporting points := by
  obtain ⟨q, phase⟩ := t
  cases phase with
  | spawned => cases hWaits
  | executing x =>
    cases x with
    | evaluating now values command rest => exact .inl ⟨now, values, command, rest, rfl⟩
    | querying now params => exact .inr (.inl ⟨now, params, rfl⟩)
    | finished x => exact absurd rfl (hStable x)
  | exporting points => exact .inr (.inr ⟨points, rfl⟩)
  | ended error => cases hWaits

theorem permits_pos (cfg : Settings) : 0 < cfg.permits := by
  unfold Settings.permits
  omega

/-- With all tasks over, the admission goes on until it ends. -/
theorem Admitting.closed_of_stuck {cfg : Settings} {queries : List Query} {s : State}
    (h : Admitting cfg queries s) (hUnfinished : s.unfinished = 0) (hStuck : ¬ s.CanAdmit cfg) :
    s.admission = .closed := by
  cases hAdmission : s.admission with
  | closed => rfl
  | holding =>
    obtain ⟨q, rest, hPending⟩ := List.exists_cons_of_ne_nil (h.holding hAdmission)
    have hStep : Step cfg s .spawn _ := .spawn hAdmission hPending
    exact absurd ⟨.spawn, _, by simp, hStep.step?⟩ hStuck
  | seeking =>
    by_cases hDone : s.pending = [] ∨ s.fired = true
    · have hStep : Step cfg s .close _ := .close hAdmission hDone
      exact absurd ⟨.close, _, by simp, hStep.step?⟩ hStuck
    · -- Without a free permit, but also without a task that holds one, there would be no permits.
      obtain ⟨hPending, hFired⟩ := not_or.mp hDone
      obtain ⟨hFree, hHand⟩ := h.free_eq_zero (by simpa using hFired) hPending hStuck
      have hSum := h.permits
      have hPos := permits_pos cfg
      omega

/-- **Progress**: a run that has not returned can go on by itself, or the token has not fired and a
task waits for an answer from outside. -/
theorem exists_step {cfg : Settings} {queries : List Query} {s : State}
    (h : Admitting cfg queries s) (hReturned : s.returned = none) (now : Int64) :
    (∃ m s', m.IsOwn now ∧ Step cfg s m s') ∨
      (s.fired = false ∧ ∃ t ∈ s.tasks, Timeline.isWaiting t = true) := by
  by_cases hAdmit : s.CanAdmit cfg
  · obtain ⟨m, s', hMove, hStep⟩ := hAdmit
    refine .inl ⟨m, s', ?_, State.step?_eq_some_iff.mp hStep⟩
    simp only [List.mem_cons, List.not_mem_nil, or_false] at hMove
    rcases hMove with rfl | rfl | rfl <;> trivial
  · -- The admission is stuck: either nothing is at work and it has ended, or a task is not over.
    by_cases hEnded : s.tasks.all Task.hasEnded = true
    · have hUnfinished : s.unfinished = 0 :=
        List.countP_eq_zero.mpr fun t hMem => by simp [List.all_eq_true.mp hEnded t hMem]
      have hClosed := h.closed_of_stuck hUnfinished hAdmit
      cases hUnseen : s.unseen with
      | nil => exact .inl ⟨.finish, _, trivial, .finish hClosed hUnseen hEnded hReturned⟩
      | cons index rest => exact .inl ⟨.see, _, trivial, .see hClosed hUnseen⟩
    · obtain ⟨t, hMem, hUnended⟩ : ∃ t ∈ s.tasks, t.hasEnded = false := by
        simpa using hEnded
      obtain ⟨index, hTask⟩ := List.mem_iff_getElem?.mp hMem
      rcases Task.exists_own_effect index now hUnended with ⟨m, e, hOwn, hIndex, hEffect⟩ | hWaits
      · exact .inl ⟨m, _, hOwn, .task hIndex hTask hEffect⟩
      · exact .inr ⟨hWaits.1, t, hMem, hWaits.2⟩

/-! ## Completion -/

/-- Whether every move of a list is allowed by a policy at the state in which it is made. -/
def Follows (cfg : Settings) (allowed : State → Move → Prop) : State → List Move → Prop
  | _, [] => True
  | s, m :: rest => allowed s m ∧ ∀ s', s.step? cfg m = some s' → Follows cfg allowed s' rest

theorem Follows.cons {cfg : Settings} {allowed : State → Move → Prop} {s s' : State} {m : Move}
    {rest : List Move} (hAllowed : allowed s m) (hStep : s.step? cfg m = some s')
    (hRest : Follows cfg allowed s' rest) : Follows cfg allowed s (m :: rest) := by
  refine ⟨hAllowed, fun s₁ hFirst => ?_⟩
  rw [hStep] at hFirst
  cases hFirst
  exact hRest

/-- What every allowed step keeps, every run under the policy keeps. -/
theorem Follows.induction {cfg : Settings} {allowed : State → Move → Prop} {P : State → Prop}
    (hStep : ∀ s m s', P s → allowed s m → Step cfg s m s' → P s') {s s' : State}
    {moves : List Move} (hFollows : Follows cfg allowed s moves)
    (hRun : s.run? cfg moves = some s') (hStart : P s) : P s' := by
  induction moves generalizing s with
  | nil =>
    cases hRun
    exact hStart
  | cons m rest ih =>
    obtain ⟨s₁, hFirst, hRest⟩ := State.run?_cons_eq_some_iff.mp hRun
    exact ih (hFollows.2 s₁ hFirst.step?) hRest (hStep s m s₁ hStart hFollows.1 hFirst)

/-- **Completion**: where a policy leaves a move until the run has returned, every run can be
completed under it, since there are only finitely many moves to make. -/
theorem exists_return (cfg : Settings) (allowed : State → Move → Prop) {P : State → Prop}
    (hStep : ∀ s m s', P s → allowed s m → Step cfg s m s' → P s')
    (hProgress : ∀ s, P s → s.returned = none → ∃ m s', allowed s m ∧ Step cfg s m s')
    (s : State) (hStart : P s) :
    ∃ moves s', Follows cfg allowed s moves ∧ s.run? cfg moves = some s' ∧
      s'.returned.isSome = true := by
  -- On the measure: the policy leaves a move, and every move makes the measure smaller.
  induction hSize : s.remaining using Nat.strongRecOn generalizing s with
  | ind n ih =>
    cases hReturned : s.returned with
    | some r => exact ⟨[], s, trivial, rfl, by simp [hReturned]⟩
    | none =>
      obtain ⟨m, s₁, hAllowed, hFirst⟩ := hProgress s hStart hReturned
      have hLess : s₁.remaining < n := hSize ▸ State.remaining_step hFirst
      obtain ⟨moves, s', hFollows, hRun, hDone⟩ :=
        ih s₁.remaining hLess s₁ (hStep s m s₁ hStart hAllowed hFirst) rfl
      exact ⟨m :: moves, s', .cons hAllowed hFirst.step? hFollows,
        State.run?_cons_eq_some_iff.mpr ⟨s₁, hFirst, hRun⟩, hDone⟩

/-- Every run can be completed: where a task waits for an answer, the token can still fire. -/
theorem exists_completion {cfg : Settings} {queries : List Query} {fired : Bool}
    {moves : List Move} {s : State}
    (hRun : (State.init cfg queries fired).run? cfg moves = some s) :
    ∃ more s', s.run? cfg more = some s' ∧ s'.returned.isSome = true := by
  have hKept : ∀ s m s', Admitting cfg queries s → True → Step cfg s m s' →
      Admitting cfg queries s' := fun _ _ _ h _ hStep => h.step hStep
  have hProgress : ∀ s, Admitting cfg queries s → s.returned = none →
      ∃ m s', True ∧ Step cfg s m s' := by
    intro s h hReturned
    rcases exists_step h hReturned 0 with ⟨m, s', -, hStep⟩ | ⟨hFired, -⟩
    · exact ⟨m, s', trivial, hStep⟩
    · exact ⟨.fire, _, trivial, .fire hFired⟩
  obtain ⟨more, s', -, hMore, hDone⟩ :=
    exists_return cfg (fun _ _ => True) hKept hProgress s (Admitting.of_run? hRun)
  exact ⟨more, s', hMore, hDone⟩

end SqlMetrics.Collector
