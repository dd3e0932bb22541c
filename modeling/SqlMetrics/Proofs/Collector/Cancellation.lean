import SqlMetrics.Proofs.Collector.Accounting
import SqlMetrics.Proofs.Collector.Duration

/-!
# After the token has fired

The token can fire in any state, from outside or from inside a call that a task waits for.  From then
on the run only comes to its end: it admits nothing, begins nothing outside, and waits for nothing.

- **Fates**: `State.fate` says how each task that is not over when the token fires will end.
- **Standstill**: from the firing on, nothing is begun outside and no permit is taken.
- **Fates are met**: `Fated` holds of every state that a run reaches after the firing.
- **Cancellation**: `cancellation_safe` puts them together, and adds the time of the return.
-/

namespace SqlMetrics.Collector

/-- Whether something that is done outside is the beginning of something. -/
def External.begins : External → Bool
  | .command _ _ | .call _ _ | .exportBegun _ _ _ => true
  | .delivered _ _ _ => false

/-! ## Fates -/

/-- How a task ends to which the move that fires the token brings the outcome of its call: with the
error of the data source or of the extraction, with what the export came to, or as crashed.  Without
an outcome, or with points that are not exported yet, it ends as cancelled. -/
def Task.fateInMove (cfg : Settings) (index : Nat) (t : Task) : Move → Option CollectorError
  | .sourceReplies _ (.answered answer _) =>
    match t.phase with
    | .executing (.querying now _) =>
      match (Execution.resumeAnswer t.query now answer).result with
      | .error e => some (.query index e)
      | .ok _ => some (.query index .cancelled)
    | _ => some (.query index .cancelled)
  | .exportReplies _ (.answered (.ok ()) _) => none
  | .exportReplies _ (.answered (.error e) _) =>
    some (.exporting (t.query.serviceOr cfg.defaultService) e)
  | .sourceReplies _ (.crashed report _) | .exportReplies _ (.crashed report _) =>
    some (.crashed report)
  | _ => some (.query index .cancelled)

/-- How the task with this index ends if the token fires in this state with this move and the task is
not over: as cancelled, unless the move is about the task and brings it the outcome of its call. -/
def State.fate (cfg : Settings) (s : State) (m : Move) (index : Nat) : Option CollectorError :=
  match s.tasks[index]? with
  | some t =>
    if m.index? = some index then t.fateInMove cfg index m else some (.query index .cancelled)
  | none => some (.query index .cancelled)

namespace Task

variable {cfg : Settings} {index : Nat} {t : Task} {m : Move} {e : TaskEffect}

/-- A move of a task that fires the token leaves the task waiting, or ends it with its fate; it
begins nothing outside. -/
theorem effect?_of_fires (hIndex : m.index? = some index)
    (hEffect : t.effect? cfg false m = some e) (hFires : e.fires = true) :
    e.externals.filter External.begins = [] ∧
      ((e.phase = t.phase ∧ t.fateInMove cfg index m = some (.query index .cancelled)) ∨
        e.phase = .ended (t.fateInMove cfg index m)) := by
  cases TaskMove.of_effect? hEffect with
  | start i now hPhase => simp [ofExecution_fires] at hFires
  | commandEnds i outcome hUnfired hPhase => simp [ofExecution_fires] at hFires
  | @sourceReplies i reply now params hUnfired hPhase =>
    cases hIndex
    cases reply with
    | answered answer fires =>
      -- The token counts as fired when the extraction settles, so its points are not exported.
      cases hFires
      simp only [TaskEffect.ofSourceReply, TaskEffect.ofExtraction, fateInMove, hPhase]
      cases (Execution.resumeAnswer t.query now answer).result with
      | error e => exact ⟨rfl, .inr rfl⟩
      | ok points => exact ⟨rfl, .inr rfl⟩
    | interrupted => exact ⟨rfl, .inl ⟨hPhase.symm, rfl⟩⟩
    | crashed report fires => exact ⟨rfl, .inr rfl⟩
  | exportReplies i reply hUnfired hPhase =>
    cases hIndex
    cases reply with
    | answered answer fires =>
      cases answer with
      | error e => exact ⟨rfl, .inr rfl⟩
      | ok u => exact ⟨rfl, .inr rfl⟩
    | interrupted => exact ⟨rfl, .inl ⟨hPhase.symm, rfl⟩⟩
    | crashed report fires => exact ⟨rfl, .inr rfl⟩
  | wake i hFired => cases hFired

end Task

namespace State

variable {cfg : Settings} {s : State} {m : Move}

theorem fate_of_index?_ne {i : Nat} (h : m.index? ≠ some i) :
    s.fate cfg m i = some (.query i .cancelled) := by
  unfold fate
  split
  · rw [if_neg h]
  · rfl

theorem fate_of_index? {i : Nat} {t : Task} (hTask : s.tasks[i]? = some t)
    (hIndex : m.index? = some i) : s.fate cfg m i = t.fateInMove cfg i m := by
  simp only [fate, hTask, hIndex, if_true]

end State

/-! ## Standstill -/

namespace State

variable {cfg : Settings} {s s' : State} {m : Move}

/-- The queries for which a permit has been taken: the admitted ones, and the next one while the
admission loop has its permit in its hand. -/
def granted (s : State) : List Query :=
  s.admitted ++ s.pending.take s.inHand

theorem granted_of_not_holding (h : s.admission ≠ .holding) : s.granted = s.admitted := by
  simp [granted, inHand, h]

/-- Once the token has fired, a step does nothing outside and takes no permit. -/
theorem step_of_fired (hFired : s.fired = true) (hStep : Step cfg s m s') :
    s'.externals = s.externals ∧ s'.granted = s.granted := by
  cases hStep with
  | acquire hSeeking hPending hUnfired => simp [hFired] at hUnfired
  | fire hUnfired => simp [hFired] at hUnfired
  | spawn hHolding hPending =>
    -- The permit was taken before; the query only becomes a task.
    simp [granted, admitted, inHand, hHolding, hPending]
  | close hSeeking => simp [granted, admitted, inHand, hSeeking]
  | see | finish => exact ⟨rfl, rfl⟩
  | @task _ index t e hIndex hTask hEffect =>
    rw [hFired] at hEffect
    obtain rfl := Task.effect?_of_fired hIndex hEffect
    refine ⟨by simp [TaskEffect.ending], ?_⟩
    rw [granted, admitted_apply hTask]
    rfl

theorem run?_of_fired {moves : List Move} (hFired : s.fired = true)
    (hRun : s.run? cfg moves = some s') :
    s'.externals = s.externals ∧ s'.granted = s.granted := by
  have hKept : s'.fired = true ∧ s'.externals = s.externals ∧ s'.granted = s.granted := by
    refine run?_induction
      (P := fun s' => s'.fired = true ∧ s'.externals = s.externals ∧ s'.granted = s.granted) ?_ hRun
      ⟨hFired, rfl, rfl⟩
    rintro s₁ m s₂ ⟨hFired₁, hExternals, hGranted⟩ hStep
    obtain ⟨hSame, hSame'⟩ := step_of_fired hFired₁ hStep
    exact ⟨fired_step hStep hFired₁, hSame.trans hExternals, hSame'.trans hGranted⟩
  exact hKept.2

/-- The move that fires the token begins nothing outside and takes no permit. -/
theorem step_of_firing (hUnfired : s.fired = false) (hStep : Step cfg s m s')
    (hFired : s'.fired = true) :
    s'.externals.filter External.begins = s.externals.filter External.begins ∧
      s'.granted = s.granted := by
  cases hStep with
  | acquire | spawn | close | see | finish => simp [hUnfired] at hFired
  | fire => exact ⟨rfl, rfl⟩
  | @task _ index t e hIndex hTask hEffect =>
    have hFires : e.fires = true := by simpa [hUnfired] using hFired
    rw [hUnfired] at hEffect
    obtain ⟨hBegins, -⟩ := Task.effect?_of_fires hIndex hEffect hFires
    refine ⟨by rw [apply_externals, List.filter_append, hBegins, List.append_nil], ?_⟩
    rw [granted, admitted_apply hTask]
    rfl

end State

/-! ## Fates are met -/

/-- What holds of a state `s'` that a run reaches after the token has fired in `s` with the move `m`:
a task that was not over in `s` has ended with its fate, or it is its fate to end as cancelled. -/
structure Fated (cfg : Settings) (s : State) (m : Move) (s' : State) : Prop where
  fired : s'.fired = true
  fates : ∀ i, s.hasEndedAt i = false →
    if s'.hasEndedAt i then s'.endError? i = s.fate cfg m i
    else s.fate cfg m i = some (.query i .cancelled)

namespace Fated

variable {cfg : Settings} {s s' s'' : State} {m m' : Move}

/-- The move that fires the token ends at most the task it is about, with its fate. -/
theorem of_firing (hUnfired : s.fired = false) (hStep : Step cfg s m s') (hFired : s'.fired = true) :
    Fated cfg s m s' := by
  cases hStep with
  | acquire | spawn | close | see | finish => simp [hUnfired] at hFired
  | fire =>
    refine ⟨rfl, fun i hOpen => ?_⟩
    have hSame : { s with fired := true }.hasEndedAt i = false := hOpen
    rw [hSame]
    exact State.fate_of_index?_ne nofun
  | @task _ index t e hIndex hTask hEffect =>
    have hUnended := Task.hasEnded_of_effect? hEffect
    have hFires : e.fires = true := by simpa [hUnfired] using hFired
    rw [hUnfired] at hEffect
    obtain ⟨-, hPhase⟩ := Task.effect?_of_fires hIndex hEffect hFires
    obtain ⟨hlt, -⟩ := List.getElem?_eq_some_iff.mp hTask
    refine ⟨hFired, fun i hOpen => ?_⟩
    rw [State.hasEndedAt_apply hTask]
    by_cases hSame : i = index
    · subst hSame
      rw [if_pos rfl, State.fate_of_index? hTask hIndex]
      rcases hPhase with ⟨hWaits, hCancelled⟩ | hEnds
      · -- Its call has fired the token and not come back.
        have hEnds : e.ends = false := by
          rw [TaskEffect.ends, hWaits, ← Task.hasEnded_eq]
          exact hUnended
        simpa [hEnds] using hCancelled
      · simp [TaskEffect.ends, hEnds, Phase.isEnded, State.endError?, hlt]
    · rw [if_neg hSame, hOpen]
      refine State.fate_of_index?_ne ?_
      rw [hIndex]
      exact fun hEq => hSame (Option.some.inj hEq).symm

/-- Once the token has fired, a task can only end as cancelled. -/
theorem step (h : Fated cfg s m s') (hStep : Step cfg s' m' s'') : Fated cfg s m s'' := by
  refine ⟨State.fired_step hStep h.fired, fun i hOpen => ?_⟩
  have hFate := h.fates i hOpen
  cases hIndex : m'.index? with
  | none =>
    -- Nothing ends, so the fate is met or open as it was.
    rw [State.hasEndedAt_step hStep hIndex]
    cases hEnded : s'.hasEndedAt i with
    | false => simpa [hEnded] using hFate
    | true =>
      rw [State.endError?_step hStep hEnded]
      simpa [hEnded] using hFate
  | some index =>
    cases hStep with
    | acquire | spawn | close | fire | see | finish => cases hIndex
    | @task _ index t e hIndex hTask hEffect =>
      have hUnended := Task.hasEnded_of_effect? hEffect
      rw [h.fired] at hEffect
      obtain rfl := Task.effect?_of_fired hIndex hEffect
      obtain ⟨hlt, -⟩ := List.getElem?_eq_some_iff.mp hTask
      rw [State.hasEndedAt_apply hTask]
      by_cases hOwn : i = index
      · -- The task was not over, so by the invariant it is its fate to end as cancelled, as it does.
        subst hOwn
        rw [State.hasEndedAt_of_unended hTask hUnended] at hFate
        simp only [Bool.false_eq_true, if_false] at hFate
        simp [TaskEffect.ending, TaskEffect.ends, Phase.isEnded, State.endError?, hlt, hFate]
      · have hOther : index ≠ i := fun hEq => hOwn hEq.symm
        rw [if_neg hOwn]
        simpa [State.endError?, hOther] using hFate

theorem of_run? {moves : List Move} (hUnfired : s.fired = false) (hStep : Step cfg s m s')
    (hFired : s'.fired = true) (hRun : s'.run? cfg moves = some s'') : Fated cfg s m s'' :=
  State.run?_induction (P := Fated cfg s m) (fun _ _ _ h hStep => h.step hStep) hRun
    (of_firing hUnfired hStep hFired)

end Fated

/-! ## The way to the end -/

/-- However a run goes on from this state, it makes only so many moves, and until it has returned it
can make one without an answer from outside; when it has returned, every task is over. -/
def State.Finishes (cfg : Settings) (s : State) : Prop :=
  ∀ more s', s.run? cfg more = some s' → more.length ≤ s.remaining ∧
    (s'.returned = none → ∀ now, ∃ m s'', m.IsOwn now ∧ s'.step? cfg m = some s'') ∧
    (s'.returned.isSome = true → s'.tasks.all Task.hasEnded = true)

/-- Once the token has fired, a run finishes by itself. -/
theorem State.finishes_of_fired {cfg : Settings} {queries : List Query} {fired : Bool}
    {moves : List Move} {s : State}
    (hRun : (State.init cfg queries fired).run? cfg moves = some s) (hFired : s.fired = true) :
    s.Finishes cfg := by
  intro more s' hMore
  have hWhole := run?_trans hRun hMore
  have hLength := remaining_run? hMore
  refine ⟨by omega, fun hReturned now => ?_, fun hReturned => ?_⟩
  · rcases exists_step (Admitting.of_run? hWhole) hReturned now with
      ⟨m, s'', hOwn, hStep⟩ | ⟨hUnfired, -⟩
    · exact ⟨m, s'', hOwn, hStep.step?⟩
    · rw [fired_run? hMore hFired] at hUnfired
      cases hUnfired
  · obtain ⟨r, hSome⟩ := Option.isSome_iff_exists.mp hReturned
    exact (Returned.of_run? hWhole r hSome).2.2.1

/-! ## Cancellation -/

/-- **After the token has fired, a run begins nothing, admits nothing and comes to its end.**
1. If the token has fired before the run, no query is admitted and nothing is done outside.
2. If the move `m` fires the token in a state `s` of a run and leads to `s₁`, it begins no command,
   call or export; and in every state `s'` that the run reaches afterwards, under every interleaving,
   nothing has been done outside since `s₁`, no permit has been taken since `s`, so the admitted
   queries are the same unless the loop had a permit in its hand, and every task that has ended since
   `s` ended with its fate.
3. In both cases the run finishes by itself: its moves are bounded in number, and until it has
   returned it can make one without an answer from outside.
4. In virtual time the run returns, whatever its calls do, at the moment of the firing if it had not
   returned before, and admits nothing from then on. -/
theorem cancellation_safe (cfg : Settings) (queries : List Query) :
    ((State.init cfg queries true).Finishes cfg ∧
      ∀ moves s, (State.init cfg queries true).run? cfg moves = some s →
        s.admitted = [] ∧ s.externals = []) ∧
    (∀ fired before s m s₁, (State.init cfg queries fired).run? cfg before = some s →
      s.fired = false → s.step? cfg m = some s₁ → s₁.fired = true →
        s₁.Finishes cfg ∧
        s₁.externals.filter External.begins = s.externals.filter External.begins ∧
        ∀ after s', s₁.run? cfg after = some s' →
          s'.externals = s₁.externals ∧
          s'.granted = s.granted ∧
          (s.admission ≠ .holding → s'.admitted = s.admitted) ∧
          ∀ i, s.hasEndedAt i = false → s'.hasEndedAt i = true →
            s'.endError? i = s.fate cfg m i) ∧
    ∀ w : World,
      (Timeline.run cfg w queries).state.returned.isSome = true ∧
      (∀ time, w.fireAt = some time → (Timeline.run cfg w queries).now ≤ time) ∧
      ∀ steps,
        let t := Timeline.runFor cfg w steps (Timeline.init cfg queries (w.fireAt == some 0))
        t.state.fired = true → (Timeline.run cfg w queries).now = t.now ∧
          (Timeline.run cfg w queries).state.admitted = t.state.admitted := by
  refine ⟨⟨?finishes, ?before⟩, ?within, ?timed⟩
  case finishes =>
    have hStart : (State.init cfg queries true).run? cfg [] = some (State.init cfg queries true) := rfl
    exact State.finishes_of_fired hStart rfl
  case before =>
    intro moves s hRun
    obtain ⟨hExternals, hGranted⟩ := State.run?_of_fired rfl hRun
    exact ⟨(List.append_eq_nil_iff.mp hGranted).1, hExternals⟩
  case within =>
    intro fired before s m s₁ hRun hUnfired hMove hFired
    have hStep := State.step?_eq_some_iff.mp hMove
    have hFiring := State.run?_singleton hStep
    obtain ⟨hBegins, hGranted⟩ := State.step_of_firing hUnfired hStep hFired
    refine ⟨State.finishes_of_fired (State.run?_trans hRun hFiring) hFired, hBegins,
      fun after s' hAfter => ?_⟩
    obtain ⟨hExternals, hGranted'⟩ := State.run?_of_fired hFired hAfter
    have hSame : s'.granted = s.granted := hGranted'.trans hGranted
    refine ⟨hExternals, hSame, fun hHand => ?_, fun i hOpen hEnded => ?_⟩
    · -- What was admitted stays so, and no more can have been admitted than has been granted.
      have hGrown : s.admitted <+: s'.admitted :=
        State.admitted_prefix_of_run? (State.run?_trans hFiring hAfter)
      have hBound : s'.admitted <+: s.admitted := by
        rw [← State.granted_of_not_holding hHand, ← hSame]
        exact List.prefix_append _ _
      exact hBound.eq_of_length_le hGrown.length_le
    · have hFate := (Fated.of_run? hUnfired hStep hFired hAfter).fates i hOpen
      simpa [hEnded] using hFate
  case timed =>
    intro w
    have hStart : Scheduled cfg w queries (Timeline.init cfg queries (w.fireAt == some 0)) := .init
    refine ⟨Timeline.returned_run cfg w queries, (hStart.runFor _).punctual, fun steps => ?_⟩
    intro t hFired
    -- The end of the run is what this timeline comes to, and after the firing time stands still.
    obtain ⟨more, hLast⟩ := Timeline.exists_run_eq cfg w queries steps
    rw [hLast]
    exact Timeline.runFor_of_fired (hStart.runFor steps) hFired more

/-- The answer of the data source comes together with the firing: its points are not exported, the
second query is not admitted, and a run whose data source is slow ends when the token fires. -/
theorem cancellation_safe_answer_with_firing :
    (∃ s s₁, (State.init ⟨1, "web"⟩ [{}, {}] false).run? ⟨1, "web"⟩
          [.acquire, .spawn, .start 0 0] = some s ∧
        s.step? ⟨1, "web"⟩ (.sourceReplies 0 (.answered (.ok []) true)) = some s₁ ∧
        s₁.Finishes ⟨1, "web"⟩ ∧ s₁.admitted = s.admitted ∧
        s₁.endError? 0 = some (.query 0 .cancelled)) ∧
      (Timeline.run ⟨1, "web"⟩ ⟨fun _ => none, fun _ => ⟨1000, .interrupted⟩,
        fun _ _ => ⟨0, .interrupted⟩, fun _ => 0, some 3⟩ [{}, {}]).now ≤ 3 := by
  obtain ⟨-, hWithin, hTimed⟩ := cancellation_safe ⟨1, "web"⟩ [{}, {}]
  obtain ⟨s, s₁, hRun, hMove, hUnfired, hFired, hHand, hOpen, hEnded, hFate⟩ : ∃ s s₁,
      (State.init ⟨1, "web"⟩ [{}, {}] false).run? ⟨1, "web"⟩
          [.acquire, .spawn, .start 0 0] = some s ∧
        s.step? ⟨1, "web"⟩ (.sourceReplies 0 (.answered (.ok []) true)) = some s₁ ∧
        s.fired = false ∧ s₁.fired = true ∧ s.admission = .seeking ∧ s.hasEndedAt 0 = false ∧
        s₁.hasEndedAt 0 = true ∧
        s.fate ⟨1, "web"⟩ (.sourceReplies 0 (.answered (.ok []) true)) 0 =
          some (.query 0 .cancelled) := ⟨_, _, rfl, rfl, rfl, rfl, rfl, rfl, rfl, rfl⟩
  obtain ⟨hFinishes, -, hAfter⟩ := hWithin false _ s _ s₁ hRun hUnfired hMove hFired
  obtain ⟨-, -, hAdmitted, hFates⟩ := hAfter [] s₁ rfl
  refine ⟨⟨s, s₁, hRun, hMove, hFinishes, hAdmitted (by simp [hHand]), ?_⟩, (hTimed _).2.1 3 rfl⟩
  rw [← hFate]
  exact hFates 0 hOpen hEnded

end SqlMetrics.Collector
