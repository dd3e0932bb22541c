import SqlMetrics.Proofs.Collector.Accounting
import SqlMetrics.Proofs.Collector.Alone

/-!
# Isolation of queries

In a run in which the token never fires, each query does and comes to what it does and comes to on
its own, in whatever order the tasks make their moves and however other queries end.

- **One query**: how often a query calls the data source and the exporter on its own.
- **Invariant**: `Isolated` splits what a query does on its own into what its task has done and what
  is left to do for it.
- **Isolation**: `siblings_isolated` compares a run with the runs of single queries.
-/

namespace SqlMetrics.Collector

/-- A call of the data source. -/
def call? : External → Option SourceCall
  | .call _ question => some question
  | _ => none

namespace State

/-- The calls of the data source that the query with this index has made. -/
def callsOf (s : State) (index : Nat) : List SourceCall :=
  (s.externalsOf index).filterMap call?

/-- What the query with this index has done, and how its task has ended. -/
def account (s : State) (index : Nat) : Account :=
  ⟨s.externalsOf index, (s.endError? index).map CollectorError.unreported⟩

end State

/-! ## One query -/

/-- The same action of the query with another index. -/
def External.reindex (index : Nat) : External → External
  | .command _ text => .command index text
  | .call _ question => .call index question
  | .exportBegun _ service points => .exportBegun index service points
  | .delivered _ service points => .delivered index service points

/-- The same error of the query with another index. -/
def CollectorError.reindex (index : Nat) : CollectorError → CollectorError
  | .query _ cause => .query index cause
  | error => error

/-- The same account of the query with another index. -/
def Account.reindex (index : Nat) (x : Account) : Account :=
  ⟨x.externals.map (External.reindex index), x.error.map (CollectorError.reindex index)⟩

namespace Answers

variable (a : Answers) (cfg : Settings) (index : Nat) (q : Query)

/-- An execution calls the data source at most once. -/
theorem length_calls_execution_le : (a.execution q).calls.length ≤ 1 := by
  simp only [execution, Query.execute, Bool.false_eq_true, if_false]
  split
  · exact Nat.zero_le 1
  · exact Nat.zero_le 1
  · exact Nat.le_refl 1

/-- What is left to do after an execution: one export of its points if it has given points. -/
theorem afterExecution_externals (result : Option Extraction) :
    (a.afterExecution cfg index q result).externals.filterMap call? = [] ∧
      (a.afterExecution cfg index q result).externals.filterMap batch? =
        match result with
        | some ⟨_, .ok points⟩ => [(q.serviceOr cfg.defaultService, points)]
        | _ => [] := by
  match result with
  | none => exact ⟨rfl, rfl⟩
  | some ⟨skips, .error e⟩ => exact ⟨rfl, rfl⟩
  | some ⟨skips, .ok points⟩ =>
    simp only [afterExecution, afterExtraction, Account.after, afterBegin]
    cases a.exporter (q.serviceOr cfg.defaultService) points with
    | none => exact ⟨rfl, rfl⟩
    | some answer =>
      cases answer with
      | error e => exact ⟨rfl, rfl⟩
      | ok u => exact ⟨rfl, rfl⟩

theorem alone_externals :
    (a.alone cfg index q).externals.filterMap call? = (a.execution q).calls ∧
      (a.alone cfg index q).externals.filterMap batch? =
        match (a.execution q).result with
        | some ⟨_, .ok points⟩ => [(q.serviceOr cfg.defaultService, points)]
        | _ => [] := by
  obtain ⟨hCalls, hBatches⟩ := a.afterExecution_externals cfg index q (a.execution q).result
  simp only [alone, Account.after, List.filterMap_append, hCalls, hBatches]
  constructor
  · simp [call?, Function.comp_def]
  · have hCommands : ((a.execution q).commands.map (External.command index)).filterMap batch? =
        [] := by simp [batch?]
    have hNone : ((a.execution q).calls.map (External.call index)).filterMap batch? = [] := by
      simp [batch?]
    rw [hCommands, hNone]
    rfl

/-- What a query does and comes to on its own does not depend on its index. -/
theorem alone_reindex (other : Nat) :
    (a.alone cfg other q).reindex index = a.alone cfg index q := by
  have hRest : (a.afterExecution cfg other q (a.execution q).result).reindex index =
      a.afterExecution cfg index q (a.execution q).result := by
    match (a.execution q).result with
    | none => rfl
    | some ⟨skips, .error e⟩ => rfl
    | some ⟨skips, .ok points⟩ =>
      simp only [afterExecution, afterExtraction, Account.after, afterBegin]
      cases a.exporter (q.serviceOr cfg.defaultService) points with
      | none => rfl
      | some answer =>
        cases answer with
        | error e => rfl
        | ok u => rfl
  simp only [alone, ← hRest, Account.after, Account.reindex, List.map_append, List.map_map]
  rfl

end Answers

/-! ## The invariant -/

/-- What holds in every state of a run that goes with the answers:
1. the token has not fired;
2. what the task of a query has done, and what is left to do for it, is what the query does and comes
   to on its own;
3. a query that is not admitted has done nothing. -/
structure Isolated (a : Answers) (cfg : Settings) (s : State) : Prop where
  unfired : s.fired = false
  split : ∀ (i : Nat) (t : Task), s.tasks[i]? = some t →
    (a.rest cfg i t).after (s.externalsOf i) = a.alone cfg i t.query
  fresh : ∀ i, s.tasks.length ≤ i → s.externalsOf i = []

namespace Isolated

variable {a : Answers} {cfg : Settings} {queries : List Query} {s s' : State}

theorem init : Isolated a cfg (State.init cfg queries false) where
  unfired := rfl
  split := fun _ _ hTask => by simp [State.init] at hTask
  fresh := fun _ _ => rfl

theorem step {m : Move} (h : Isolated a cfg s) (hAllowed : a.Allows cfg s m)
    (hStep : Step cfg s m s') : Isolated a cfg s' := by
  cases hStep with
  | acquire | close | see | finish => exact ⟨h.unfired, h.split, h.fresh⟩
  | fire => exact absurd rfl hAllowed.1
  | @spawn q rest hHolding hPending =>
    refine ⟨h.unfired, fun i t hTask => ?_, fun i hBeyond => ?_⟩
    · rcases State.getElem?_append_spawned hTask with ⟨rfl, rfl⟩ | hOld
      · -- Nothing is done for a query before its task has made a move.
        have hNone : s.externalsOf s.tasks.length = [] := h.fresh _ (Nat.le_refl _)
        change (a.rest cfg _ ⟨q, .spawned⟩).after (s.externalsOf s.tasks.length) = a.alone cfg _ q
        rw [hNone, Account.after_nil]
        exact Answers.rest_spawned
      · exact h.split i t hOld
    · refine h.fresh i ?_
      simp only [List.length_append] at hBeyond
      omega
  | @task _ index t e hIndex hTask hEffect =>
    have hMove := hAllowed.2 index t hIndex hTask
    have hUnfired := h.unfired
    obtain ⟨hFires, hRest⟩ := Answers.rest_of_effect? hMove hIndex (hUnfired ▸ hEffect)
    refine ⟨by simp [hUnfired, hFires], ?_, fun i hBeyond => ?_⟩
    · refine State.forall_task_apply
        (P := fun i u externals => (a.rest cfg i u).after externals = a.alone cfg i u.query)
        hIndex hTask hEffect h.split ?_
      -- The move does the first piece of what was left to do.
      rw [← Account.after_after, ← hRest]
      exact h.split index t hTask
    · rw [State.externalsOf_apply_of_le hIndex hTask hEffect hBeyond]
      rw [State.apply_tasks, List.length_set] at hBeyond
      exact h.fresh i hBeyond

theorem of_run? {moves : List Move}
    (hFollows : Follows cfg (a.Allows cfg) (State.init cfg queries false) moves)
    (hRun : (State.init cfg queries false).run? cfg moves = some s) : Isolated a cfg s :=
  hFollows.induction (P := Isolated a cfg) (fun _ _ _ h hAllowed hStep => h.step hAllowed hStep) hRun
    init

/-- What a query has done is a first part of what it does on its own. -/
theorem externalsOf_prefix (h : Isolated a cfg s) (hAdmitting : Admitting cfg queries s) {i : Nat}
    {q : Query} (hQuery : queries[i]? = some q) :
    s.externalsOf i <+: (a.alone cfg i q).externals := by
  cases hTask : s.tasks[i]? with
  | none =>
    rw [h.fresh i (List.getElem?_eq_none_iff.mp hTask)]
    exact List.nil_prefix
  | some t =>
    rw [← hAdmitting.query_eq hTask hQuery, ← h.split i t hTask]
    exact List.prefix_append _ _

/-- When a run has returned, each query has done and come to what it does and comes to on its own. -/
theorem account_eq (h : Isolated a cfg s) (hAdmitting : Admitting cfg queries s)
    (hReturned : Returned s) (hDone : s.returned.isSome = true) :
    s.admitted = queries ∧
      ∀ i q, queries[i]? = some q → s.account i = a.alone cfg i q := by
  obtain ⟨r, hSome⟩ := Option.isSome_iff_exists.mp hDone
  obtain ⟨hClosed, -, hEnded, -⟩ := hReturned r hSome
  have hPending : s.pending = [] :=
    (hAdmitting.closed hClosed).resolve_right (by simp [h.unfired])
  have hAdmitted : s.admitted = queries := by
    rw [← hAdmitting.queries, hPending, List.append_nil]
  refine ⟨hAdmitted, fun i q hQuery => ?_⟩
  cases hTask : s.tasks[i]? with
  | none =>
    rw [← hAdmitted] at hQuery
    simp [State.admitted, hTask] at hQuery
  | some t =>
    rw [← hAdmitting.query_eq hTask hQuery, ← h.split i t hTask]
    -- For a task that is over nothing is left to do but to say how it ended.
    have hOver := List.all_eq_true.mp hEnded t (List.mem_of_getElem? hTask)
    obtain ⟨q', phase⟩ := t
    cases phase with
    | ended error => simp [State.account, State.endError?, hTask, Answers.rest, Account.after]
    | spawned | executing | exporting => cases hOver

end Isolated

/-! ## Completion -/

/-- A move that a run makes by itself goes with the answers. -/
theorem Answers.allows_of_isOwn (a : Answers) (cfg : Settings) (s : State) {m : Move}
    (hOwn : m.IsOwn a.now) : a.Allows cfg s m := by
  cases m with
  | fire | commandEnds | sourceReplies | exportReplies => exact hOwn.elim
  | start i now => exact ⟨nofun, fun _ _ _ _ => hOwn⟩
  | acquire | spawn | close | wake | see | finish => exact ⟨nofun, fun _ _ _ _ => trivial⟩

/-- A task that waits for an answer can be given it. -/
theorem Answers.exists_answer (a : Answers) {cfg : Settings} {s : State} {t : Task}
    (hUnfired : s.fired = false) (hMem : t ∈ s.tasks) (hStable : t.phase.Stable)
    (hWaits : Timeline.isWaiting t = true) : ∃ m s', a.Allows cfg s m ∧ Step cfg s m s' := by
  obtain ⟨index, hTask⟩ := List.mem_iff_getElem?.mp hMem
  -- A move about this task that brings what the answers say, and is possible, is a step.
  have hGive (m : Move) (hIndex : m.index? = some index) (hAllowed : a.AllowsTask cfg t m)
      (hEffect : (t.effect? cfg false m).isSome = true) :
      ∃ m s', a.Allows cfg s m ∧ Step cfg s m s' := by
    obtain ⟨e, hSome⟩ := Option.isSome_iff_exists.mp hEffect
    refine ⟨m, _, ⟨?_, fun i u hOther hFound => ?_⟩, .task hIndex hTask (hUnfired ▸ hSome)⟩
    · rintro rfl
      cases hIndex
    · obtain rfl := Option.some.inj (hIndex.symm.trans hOther)
      obtain rfl := Option.some.inj (hTask.symm.trans hFound)
      exact hAllowed
  rcases t.waiting_cases hWaits hStable with
    ⟨now, values, command, rest, hPhase⟩ | ⟨now, params, hPhase⟩ | ⟨points, hPhase⟩
  · refine hGive (.commandEnds index (a.shell command)) rfl ?_ (by simp [Task.effect?, hPhase])
    intro now' values' command' rest' hSame
    rw [hPhase] at hSame
    cases hSame
    rfl
  · refine hGive (.sourceReplies index (replyOf (a.source ⟨t.query.sql, params⟩))) rfl ?_
      (by simp [Task.effect?, hPhase])
    intro now' params' hSame
    rw [hPhase] at hSame
    cases hSame
    exact isReply_replyOf _
  · refine hGive (.exportReplies index
      (replyOf (a.exporter (t.query.serviceOr cfg.defaultService) points))) rfl ?_
      (by simp [Task.effect?, hPhase])
    intro points' hSame
    rw [hPhase] at hSame
    cases hSame
    exact isReply_replyOf _

/-- Every run that goes with the answers can be completed so. -/
theorem Answers.exists_completion (a : Answers) {cfg : Settings} {queries : List Query}
    {moves : List Move} {s : State}
    (hFollows : Follows cfg (a.Allows cfg) (State.init cfg queries false) moves)
    (hRun : (State.init cfg queries false).run? cfg moves = some s) :
    ∃ more s', Follows cfg (a.Allows cfg) s more ∧ s.run? cfg more = some s' ∧
      s'.returned.isSome = true := by
  have hStep : ∀ s m s', (Admitting cfg queries s ∧ s.Stable ∧ Isolated a cfg s) →
      a.Allows cfg s m → Step cfg s m s' →
      Admitting cfg queries s' ∧ s'.Stable ∧ Isolated a cfg s' := by
    rintro s m s' ⟨hAdmitting, hStable, hIsolated⟩ hAllowed hStep
    exact ⟨hAdmitting.step hStep, State.stable_step hStable hStep, hIsolated.step hAllowed hStep⟩
  have hProgress : ∀ s, (Admitting cfg queries s ∧ s.Stable ∧ Isolated a cfg s) →
      s.returned = none → ∃ m s', a.Allows cfg s m ∧ Step cfg s m s' := by
    rintro s ⟨hAdmitting, hStable, hIsolated⟩ hReturned
    rcases exists_step hAdmitting hReturned a.now with ⟨m, s', hOwn, hStep⟩ | ⟨-, t, hMem, hWaits⟩
    · exact ⟨m, s', a.allows_of_isOwn cfg s hOwn, hStep⟩
    · exact a.exists_answer hIsolated.unfired hMem (hStable t hMem) hWaits
  exact exists_return cfg (a.Allows cfg) hStep hProgress s
    ⟨Admitting.of_run? hRun, State.stable_of_run? hRun, Isolated.of_run? hFollows hRun⟩

/-! ## Isolation -/

/-- **Each query does and comes to what it does and comes to on its own.**  Let every answer depend
on the question only, what is reported of a crash apart, and let the token never fire.  Under every
interleaving:
1. what a query has done is at each moment a first part of what it does on its own, and holds at most
   one call of the data source;
2. the run makes only so many moves, and it can be completed;
3. when it has returned, every query of the list has been admitted, in its place;
4. the indices and accounts, in the order in which the tasks ended, are those of the queries on their
   own, each once;
5. a query whose execution has given points has begun one export, of these points for its service;
   any other has begun none;
6. the account of a query is the one of every run of this query alone. -/
theorem siblings_isolated (cfg : Settings) (a : Answers) (queries : List Query)
    (moves : List Move) (s : State)
    (hFollows : Follows cfg (a.Allows cfg) (State.init cfg queries false) moves)
    (hRun : (State.init cfg queries false).run? cfg moves = some s) :
    (∀ i q, queries[i]? = some q →
      s.externalsOf i <+: (a.alone cfg i q).externals ∧ (s.callsOf i).length ≤ 1) ∧
    (moves.length ≤ (State.init cfg queries false).remaining ∧
      ∃ more s', Follows cfg (a.Allows cfg) s more ∧ s.run? cfg more = some s' ∧
        s'.returned.isSome = true) ∧
    (s.returned.isSome = true →
      s.admitted = queries ∧
      (((State.init cfg queries false).completions cfg moves).map fun i => (i, s.account i)).Perm
        (queries.zipIdx.map fun x => (x.2, a.alone cfg x.2 x.1)) ∧
      ∀ i q, queries[i]? = some q →
        s.exportsOf i =
          (match (a.execution q).result with
            | some ⟨_, .ok points⟩ => [(q.serviceOr cfg.defaultService, points)]
            | _ => []) ∧
        ∀ moves' s', Follows cfg (a.Allows cfg) (State.init cfg [q] false) moves' →
          (State.init cfg [q] false).run? cfg moves' = some s' → s'.returned.isSome = true →
          s.account i = (s'.account 0).reindex i) := by
  have hAdmitting := Admitting.of_run? hRun
  have hIsolated := Isolated.of_run? hFollows hRun
  have hLength := State.remaining_run? hRun
  refine ⟨fun i q hQuery => ?_, ⟨by omega, a.exists_completion hFollows hRun⟩, fun hDone => ?_⟩
  · have hPrefix := hIsolated.externalsOf_prefix hAdmitting hQuery
    refine ⟨hPrefix, ?_⟩
    -- The calls so far are a first part of those of the execution, which makes one at most.
    have hCalls : s.callsOf i <+: (a.execution q).calls := by
      rw [← (a.alone_externals cfg i q).1]
      exact hPrefix.filterMap call?
    exact Nat.le_trans hCalls.length_le (a.length_calls_execution_le q)
  · obtain ⟨hAdmitted, hAccounts⟩ :=
      hIsolated.account_eq hAdmitting (Returned.of_run? hRun) hDone
    obtain ⟨r, hSome⟩ := Option.isSome_iff_exists.mp hDone
    have hEnded := (Completed.of_returned hRun hSome).2
    rw [hAdmitted] at hEnded
    refine ⟨hAdmitted, ?_, fun i q hQuery => ⟨?_, ?_⟩⟩
    · -- In the order of the list the accounts are those of the queries alone, and the order of the
      -- ends is a permutation of it.
      have hInOrder : ((List.range queries.length).map fun i => (i, s.account i)) =
          queries.zipIdx.map fun x => (x.2, a.alone cfg x.2 x.1) := by
        refine List.ext_getElem? fun i => ?_
        cases hQuery : queries[i]? with
        | none => simp [List.getElem?_eq_none_iff.mp hQuery]
        | some q =>
          obtain ⟨hlt, heq⟩ := List.getElem?_eq_some_iff.mp hQuery
          simp [hlt, heq, hAccounts i q hQuery]
      rw [← hInOrder]
      exact hEnded.map _
    · rw [← (a.alone_externals cfg i q).2, ← hAccounts i q hQuery]
      rfl
    · -- The run of the single query is a run as well, so the same holds of it.
      intro moves' s' hFollows' hRun' hDone'
      have hAlone := ((Isolated.of_run? hFollows' hRun').account_eq (Admitting.of_run? hRun')
        (Returned.of_run? hRun') hDone').2 0 q rfl
      rw [hAlone, Answers.alone_reindex]
      exact hAccounts i q hQuery

/-- Two queries at work at once: the export of the second crashes, and each has begun its own. -/
theorem siblings_isolated_two_queries :
    ∃ s, (State.init ⟨2, "web"⟩ [{}, { service := some "db" }] false).run? ⟨2, "web"⟩
        [.acquire, .spawn, .acquire, .spawn, .close, .start 1 0, .start 0 0,
          .sourceReplies 1 (.answered (.ok []) false), .sourceReplies 0 (.answered (.ok []) false),
          .exportReplies 1 (.crashed "overflow" false), .exportReplies 0 (.answered (.ok ()) false),
          .see, .see, .finish] = some s ∧
      s.admitted = [{}, { service := some "db" }] ∧
      s.exportsOf 0 = [("web", [])] ∧ s.exportsOf 1 = [("db", [])] := by
  let a : Answers := ⟨fun _ => .ended (.code 0) [] [], fun _ => some (.ok []),
    fun service _ => if service = "web" then some (.ok ()) else none, 0⟩
  have hOwn (s : State) (m : Move) (h : m.IsOwn 0) : a.Allows ⟨2, "web"⟩ s m :=
    a.allows_of_isOwn _ s h
  obtain ⟨s, hRun, hDone, hFollows⟩ : ∃ s,
      (State.init ⟨2, "web"⟩ [{}, { service := some "db" }] false).run? ⟨2, "web"⟩
        [.acquire, .spawn, .acquire, .spawn, .close, .start 1 0, .start 0 0,
          .sourceReplies 1 (.answered (.ok []) false), .sourceReplies 0 (.answered (.ok []) false),
          .exportReplies 1 (.crashed "overflow" false), .exportReplies 0 (.answered (.ok ()) false),
          .see, .see, .finish] = some s ∧
      s.returned.isSome = true ∧
      Follows ⟨2, "web"⟩ (a.Allows ⟨2, "web"⟩)
        (State.init ⟨2, "web"⟩ [{}, { service := some "db" }] false)
        [.acquire, .spawn, .acquire, .spawn, .close, .start 1 0, .start 0 0,
          .sourceReplies 1 (.answered (.ok []) false), .sourceReplies 0 (.answered (.ok []) false),
          .exportReplies 1 (.crashed "overflow" false), .exportReplies 0 (.answered (.ok ()) false),
          .see, .see, .finish] := by
    refine ⟨_, rfl, rfl, ?_⟩
    refine .cons (hOwn _ _ trivial) rfl (.cons (hOwn _ _ trivial) rfl ?_)
    refine .cons (hOwn _ _ trivial) rfl (.cons (hOwn _ _ trivial) rfl ?_)
    refine .cons (hOwn _ _ trivial) rfl (.cons (hOwn _ _ rfl) rfl (.cons (hOwn _ _ rfl) rfl ?_))
    refine .cons ⟨nofun, fun _ _ _ _ _ _ _ => rfl⟩ rfl ?_
    refine .cons ⟨nofun, fun _ _ _ _ _ _ _ => rfl⟩ rfl ?_
    refine .cons ⟨nofun, fun i t hIndex hTask points hPhase => ?crash⟩ rfl ?_
    case crash =>
      obtain rfl := Option.some.inj hIndex
      obtain rfl := Option.some.inj hTask
      exact ⟨_, rfl⟩
    refine .cons ⟨nofun, fun i t hIndex hTask points hPhase => ?deliver⟩ rfl ?_
    case deliver =>
      obtain rfl := Option.some.inj hIndex
      obtain rfl := Option.some.inj hTask
      rfl
    exact .cons (hOwn _ _ trivial) rfl (.cons (hOwn _ _ trivial) rfl
      (.cons (hOwn _ _ trivial) rfl trivial))
  obtain ⟨-, -, hAccount⟩ := siblings_isolated _ a _ _ s hFollows hRun
  obtain ⟨hAdmitted, -, hExports⟩ := hAccount hDone
  exact ⟨s, hRun, hAdmitted, (hExports 0 _ rfl).1, (hExports 1 _ rfl).1⟩

end SqlMetrics.Collector
