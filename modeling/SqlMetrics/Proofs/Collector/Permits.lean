import SqlMetrics.Proofs.Collector.Run

/-!
# Permits

The admission loop takes a permit for each query and hands it to the task of the query, which gives
it back when it ends, in whatever way.

- **Invariant**: `Admitting` holds of every state that a run reaches.
- **Conservation, order and no waste**: `permits_conserved` states that no permit is lost or made,
  that queries are admitted in the order of the list, and that the admission loop is stuck only
  when all permits are at work.
-/

namespace SqlMetrics.Collector

namespace State

/-- How many tasks are not over.  Each of them holds a permit. -/
def unfinished (s : State) : Nat :=
  s.tasks.countP fun t => !t.hasEnded

/-- How many permits the admission loop has taken and not handed over. -/
def inHand (s : State) : Nat :=
  if s.admission = .holding then 1 else 0

/-- Whether the admission loop can make a move. -/
def CanAdmit (cfg : Settings) (s : State) : Prop :=
  ∃ m s', m ∈ [Move.acquire, .spawn, .close] ∧ s.step? cfg m = some s'

/-! ## Unfinished tasks -/

/-- A task that ends is one less among the unfinished ones. -/
theorem unfinished_apply {s : State} {index : Nat} {t : Task} (hTask : s.tasks[index]? = some t)
    (hUnended : t.hasEnded = false) (e : TaskEffect) :
    (s.apply index t e).unfinished + e.ends.toNat = s.unfinished := by
  obtain ⟨hlt, heq⟩ := List.getElem?_eq_some_iff.mp hTask
  -- The task itself is counted before the move, which makes the subtraction below exact.
  have hPos : 0 < s.unfinished := by
    refine List.countP_pos_iff.mpr ⟨t, List.mem_of_getElem? hTask, ?_⟩
    simp [hUnended]
  have hNew : Task.hasEnded ⟨t.query, e.phase⟩ = e.ends := Task.hasEnded_eq _
  have hSet : (s.apply index t e).unfinished = s.unfinished - 1 + (!e.ends).toNat := by
    simp only [unfinished, apply_tasks, List.countP_set hlt, heq, hUnended, hNew]
    cases e.ends <;> rfl
  cases hEnds : e.ends <;> rw [hEnds] at hSet <;> simp at hSet ⊢ <;> omega

end State

/-! ## The invariant of the admission -/

/-- What holds of the admission in every state of a run:
1. the free permits, those of the unfinished tasks and the one in the loop's hand are all there are;
2. the admitted and the pending queries together are the list of the run;
3. the loop takes a permit only for a query that is there;
4. the loop ends early only when the token has fired. -/
structure Admitting (cfg : Settings) (queries : List Query) (s : State) : Prop where
  permits : s.free + s.unfinished + s.inHand = cfg.permits
  queries : s.admitted ++ s.pending = queries
  holding : s.admission = .holding → s.pending ≠ []
  closed : s.admission = .closed → s.pending = [] ∨ s.fired = true

namespace Admitting

variable {cfg : Settings} {queries : List Query}

theorem init (fired : Bool) : Admitting cfg queries (State.init cfg queries fired) where
  permits := rfl
  queries := rfl
  holding := nofun
  closed := nofun

theorem step {s s' : State} {m : Move} (h : Admitting cfg queries s) (hStep : Step cfg s m s') :
    Admitting cfg queries s' := by
  obtain ⟨hPermits, hQueries, hHolding, hClosed⟩ := h
  cases hStep with
  | acquire hSeeking hPending hFired hFree =>
    refine ⟨?_, hQueries, fun _ => hPending, ?_⟩
    · simp only [State.inHand, hSeeking, State.unfinished] at hPermits ⊢
      simp at hPermits ⊢
      omega
    · intro hNow
      cases hNow
  | @spawn q rest hHold hPending =>
    refine ⟨?_, ?_, ?_, ?_⟩
    · -- The permit goes from the hand of the loop to the new task.
      simp only [State.inHand, hHold, State.unfinished, List.countP_append] at hPermits ⊢
      simp [Task.hasEnded] at hPermits ⊢
      omega
    · simpa [State.admitted, hPending] using hQueries
    · intro hNow
      cases hNow
    · intro hNow
      cases hNow
  | close hSeeking hDone =>
    refine ⟨?_, hQueries, ?_, fun _ => hDone⟩
    · simpa [State.inHand, hSeeking, State.unfinished] using hPermits
    · intro hNow
      cases hNow
  | fire hFired => exact ⟨hPermits, hQueries, hHolding, fun _ => .inr rfl⟩
  | @task _ index t e hIndex hTask hEffect =>
    -- In whatever way the move ends the task, one permit comes free and one task less is unfinished.
    have hUnfinished := State.unfinished_apply hTask (Task.hasEnded_of_effect? hEffect) e
    refine ⟨?_, ?_, hHolding, fun hAdmission => ?_⟩
    · have hFree : (s.apply index t e).free = s.free + e.ends.toNat := rfl
      have hHand : (s.apply index t e).inHand = s.inHand := rfl
      omega
    · rw [State.admitted_apply hTask]
      exact hQueries
    · exact (hClosed hAdmission).imp id fun hFired => by simp [hFired]
  | see hClosedNow hUnseen => exact ⟨hPermits, hQueries, hHolding, hClosed⟩
  | finish hClosedNow hUnseen hEnded hReturned => exact ⟨hPermits, hQueries, hHolding, hClosed⟩

/-- The invariant holds of every state that a run reaches. -/
theorem of_run? {fired : Bool} {moves : List Move} {s : State}
    (hRun : (State.init cfg queries fired).run? cfg moves = some s) : Admitting cfg queries s :=
  State.run?_induction (P := Admitting cfg queries) (fun _ _ _ => step) hRun (init fired)

/-- An admission loop that is stuck although queries are left has no permit to take. -/
theorem free_eq_zero {s : State} (h : Admitting cfg queries s) (hFired : s.fired = false)
    (hPending : s.pending ≠ []) (hStuck : ¬ s.CanAdmit cfg) : s.free = 0 ∧ s.inHand = 0 := by
  cases hAdmission : s.admission with
  | seeking =>
    refine ⟨Nat.eq_zero_of_not_pos fun hFree => ?_, by simp [State.inHand, hAdmission]⟩
    -- With a free permit the loop could take it.
    have hStep : Step cfg s .acquire _ := .acquire hAdmission hPending hFired hFree
    exact hStuck ⟨.acquire, _, by simp, hStep.step?⟩
  | holding =>
    obtain ⟨q, rest, hQuery⟩ := List.exists_cons_of_ne_nil hPending
    have hStep : Step cfg s .spawn _ := .spawn hAdmission hQuery
    exact absurd ⟨.spawn, _, by simp, hStep.step?⟩ hStuck
  | closed =>
    rcases h.closed hAdmission with hNone | hSome
    · exact absurd hNone hPending
    · simp [hFired] at hSome

end Admitting

/-! ## Conservation -/

/-- **Permits are conserved, queries are admitted in order, and no permit is idle.**  In every state
`s` of a run, under every interleaving and with every way in which tasks end:
1. free permits, permits of unfinished tasks and the permit in the loop's hand add up to the limit,
   so no more than that many queries are in flight;
2. the admitted queries are a prefix of the list, and stay one as the run goes on to `s'`;
3. while the token has not fired and queries are left, the loop is stuck only when as many tasks as
   there are permits are unfinished. -/
theorem permits_conserved (cfg : Settings) (queries : List Query) (fired : Bool)
    (before after : List Move) (s s' : State)
    (hBefore : (State.init cfg queries fired).run? cfg before = some s)
    (hAfter : s.run? cfg after = some s') :
    let limit := max 1 (min cfg.maxConcurrency maxPermits)
    (s.free + s.unfinished + s.inHand = limit ∧ s.unfinished ≤ limit) ∧
      (s.admitted <+: s'.admitted ∧ s'.admitted <+: queries) ∧
      (s.fired = false → s.admitted ≠ queries → ¬ s.CanAdmit cfg → s.unfinished = limit) := by
  intro limit
  have hNow := Admitting.of_run? hBefore
  have hThen := Admitting.of_run? (State.run?_trans hBefore hAfter)
  have hSum : s.free + s.unfinished + s.inHand = limit := hNow.permits
  refine ⟨⟨hSum, by omega⟩, ⟨State.admitted_prefix_of_run? hAfter, ⟨_, hThen.queries⟩⟩, ?_⟩
  intro hFired hLeft hStuck
  have hPending : s.pending ≠ [] := fun hNone => hLeft (by simpa [hNone] using hNow.queries)
  obtain ⟨hFree, hHand⟩ := hNow.free_eq_zero hFired hPending hStuck
  omega

/-- With one permit, the first of two queries at work keeps the loop from admitting the second; once
it has crashed, the second is admitted. -/
theorem permits_conserved_limit_one :
    ∃ s s', (State.init ⟨1, "web"⟩ [{}, {}] false).run? ⟨1, "web"⟩
        [.acquire, .spawn, .start 0 0] = some s ∧
      s.run? ⟨1, "web"⟩ [.sourceReplies 0 (.crashed "overflow" false), .acquire, .spawn] = some s' ∧
      s.free + s.unfinished + s.inHand = 1 ∧ s.unfinished = 1 ∧ s.admitted <+: s'.admitted ∧
      s'.admitted <+: [{}, {}] := by
  refine ⟨_, _, rfl, rfl, ?_⟩
  obtain ⟨⟨hSum, -⟩, ⟨hGrows, hPrefix⟩, hBusy⟩ :=
    permits_conserved ⟨1, "web"⟩ [{}, {}] false [.acquire, .spawn, .start 0 0]
      [.sourceReplies 0 (.crashed "overflow" false), .acquire, .spawn] _ _ rfl rfl
  have hLeft : ([{}] : List Query) ≠ [{}, {}] := fun hSame =>
    absurd (congrArg List.length hSame) (by decide)
  refine ⟨hSum, hBusy rfl hLeft ?_, hGrows, hPrefix⟩
  rintro ⟨m, s', hMove, hStep⟩
  simp only [List.mem_cons, List.not_mem_nil, or_false] at hMove
  rcases hMove with rfl | rfl | rfl <;> cases hStep

end SqlMetrics.Collector
