import SqlMetrics.Proofs.Collector.Progress

/-!
# A query on its own

When the token never fires and every answer depends only on what was asked, it is fixed from the
start what the task of a query does and how it ends, whatever other tasks do.

- **Answers**: `Answers` are what is asked of, and `Answers.Allows` the moves that go with them.
- **Accounts**: `Answers.alone` is what a query does and comes to on its own, by `Query.execute`.
- **What is left to do**: `Answers.rest` is the part of it that a task in some phase has before
  itself, and `rest_of_effect?` states that a move does the next piece.
-/

namespace SqlMetrics.Collector

/-! ## Answers -/

/-- What is asked of in a run: each answer depends on the question only, and the clock reads the same
for all queries. -/
structure Answers where
  /-- What a command comes to. -/
  shell : String → Shell.Outcome
  /-- What the data source answers; `none` when the call crashes the task. -/
  source : SourceCall → Option SourceAnswer
  /-- What the exporter answers for a service and a batch; `none` when the call crashes the task. -/
  exporter : String → List MetricPoint → Option ExportAnswer
  /-- The reading of the clock. -/
  now : Int64

/-- What a call comes to that answers or crashes, and does not fire the token. -/
def replyOf {α : Type} : Option α → Reply α
  | some answer => .answered answer false
  | none => .crashed "" false

/-- Whether a call comes to this, whatever is reported of a crash: the run time tells the task in it by
a number that is not the query's own. -/
def IsReply {α : Type} : Option α → Reply α → Prop
  | some answer, reply => reply = .answered answer false
  | none, reply => ∃ report, reply = .crashed report false

theorem isReply_replyOf {α : Type} (answer : Option α) : IsReply answer (replyOf answer) := by
  cases answer with
  | some answer => rfl
  | none => exact ⟨"", rfl⟩

/-- Whether a move brings a task the answer to what it has asked. -/
def Answers.AllowsTask (a : Answers) (cfg : Settings) (t : Task) : Move → Prop
  | .start _ now => now = a.now
  | .commandEnds _ outcome => ∀ now values command rest,
    t.phase = .executing (.evaluating now values command rest) → outcome = a.shell command
  | .sourceReplies _ reply => ∀ now params,
    t.phase = .executing (.querying now params) → IsReply (a.source ⟨t.query.sql, params⟩) reply
  | .exportReplies _ reply => ∀ points, t.phase = .exporting points →
    IsReply (a.exporter (t.query.serviceOr cfg.defaultService) points) reply
  | _ => True

/-- Whether a move goes with the answers.  The token does not fire. -/
def Answers.Allows (a : Answers) (cfg : Settings) (s : State) (m : Move) : Prop :=
  m ≠ .fire ∧ ∀ index t, m.index? = some index → s.tasks[index]? = some t → a.AllowsTask cfg t m

/-! ## Accounts -/

/-- The error without what is reported of a crash. -/
def CollectorError.unreported : CollectorError → CollectorError
  | .crashed _ => .crashed ""
  | e => e

/-- What a query does outside, in order, and how its task ends; `none` is success.  What is reported of
a crash is left out. -/
structure Account where
  externals : List External
  error : Option CollectorError

/-- The account with something done before. -/
def Account.after (before : List External) (rest : Account) : Account :=
  ⟨before ++ rest.externals, rest.error⟩

theorem Account.after_nil (rest : Account) : rest.after [] = rest := rfl

theorem Account.after_after (x y : List External) (rest : Account) :
    (rest.after y).after x = rest.after (x ++ y) := by
  simp [Account.after]

namespace Answers

variable (a : Answers) (cfg : Settings) (index : Nat) (q : Query)

/-- What is left to do for a task that waits for the exporter. -/
def afterBegin (points : List MetricPoint) : Account :=
  let service := q.serviceOr cfg.defaultService
  match a.exporter service points with
  | some (.ok ()) => ⟨[.delivered index service points], none⟩
  | some (.error e) => ⟨[], some (.exporting service e)⟩
  | none => ⟨[], some (.crashed "")⟩

/-- What is left to do after an extraction. -/
def afterExtraction (x : Extraction) : Account :=
  match x.result with
  | .error e => ⟨[], some (.query index e)⟩
  | .ok points =>
    (a.afterBegin cfg index q points).after
      [.exportBegun index (q.serviceOr cfg.defaultService) points]

/-- What is left to do after an execution, which leaves nothing when it crashes. -/
def afterExecution : Option Extraction → Account
  | some x => a.afterExtraction cfg index q x
  | none => ⟨[], some (.crashed "")⟩

/-- The execution of a query. -/
def execution : ExecutionReport :=
  q.execute (Param.memoryless a.shell) (fun call => replyOf (a.source call)) a.now false

/-- What the query with this index does and comes to on its own. -/
def alone : Account :=
  let report := a.execution q
  (a.afterExecution cfg index q report.result).after
    (report.commands.map (.command index) ++ report.calls.map (.call index))

/-! ## What is left to do -/

/-- What is left to do for a task that waits for the data source. -/
def afterCall (now : Int64) (params : List Param) : Account :=
  a.afterExecution cfg index q ((a.source ⟨q.sql, params⟩).map (Execution.resumeAnswer q now))

/-- What is left to do with an evaluation of parameters. -/
def afterEvaluation (now : Int64) (evaluation : Param.Evaluation) : Account :=
  Account.after (evaluation.commands.map (.command index)) <|
    match evaluation.result with
    | .values params => (a.afterCall cfg index q now params).after [.call index ⟨q.sql, params⟩]
    | .failed e => ⟨[], some (.query index (.params e))⟩
    | .interrupted => ⟨[], some (.query index .cancelled)⟩

/-- What is left to do for a task, by its phase. -/
def rest (t : Task) : Account :=
  match t.phase with
  | .spawned =>
    a.afterEvaluation cfg index t.query a.now
      (Param.evaluateFrom (Param.memoryless a.shell) [] [] t.query.params)
  | .executing (.evaluating now values command rest) =>
    match Param.ofOutcome command (a.shell command) with
    | .error e => ⟨[], some (.query index (.params e))⟩
    | .ok value =>
      a.afterEvaluation cfg index t.query now
        (Param.evaluateFrom (Param.memoryless a.shell) [] (values ++ [value]) rest)
  | .executing (.querying now params) => a.afterCall cfg index t.query now params
  | .executing (.finished x) => a.afterExtraction cfg index t.query x
  | .exporting points => a.afterBegin cfg index t.query points
  | .ended error => ⟨[], error.map CollectorError.unreported⟩

variable {a cfg index q}

/-- At the start everything is left to do. -/
theorem rest_spawned : a.rest cfg index ⟨q, .spawned⟩ = a.alone cfg index q := by
  simp only [rest, alone, execution, Query.execute, Param.evaluate, afterEvaluation, Bool.false_eq_true,
    if_false]
  cases (Param.evaluateFrom (Param.memoryless a.shell) [] [] q.params).result with
  | interrupted => simp [Account.after, afterExecution, afterExtraction]
  | failed e => simp [Account.after, afterExecution, afterExtraction]
  | values params =>
    -- Here the query makes its call, and the account goes on with its answer.
    dsimp only
    rw [Account.after_after, afterCall]
    cases a.source ⟨q.sql, params⟩ with
    | none => rfl
    | some answer => rfl

/-- An extraction that settles does the next piece of what is left to do. -/
theorem afterExtraction_effect (x : Extraction) :
    let e := TaskEffect.ofExtraction cfg index q false x
    a.afterExtraction cfg index q x = (a.rest cfg index ⟨q, e.phase⟩).after e.externals := by
  intro e
  simp only [e, afterExtraction, TaskEffect.ofExtraction]
  cases x.result with
  | error e => rfl
  | ok points => rfl

/-- An evaluation that stops does the next piece of what is left to do. -/
theorem afterEvaluation_effect (now : Int64) (progress : Param.Progress) :
    let e := TaskEffect.ofExecution cfg index q false (.ofProgress now progress)
    a.afterEvaluation cfg index q now (Param.evaluateOn (Param.memoryless a.shell) [] progress) =
      (a.rest cfg index ⟨q, e.phase⟩).after e.externals := by
  cases progress with
  | finished values => rfl
  | waiting values command rest =>
    -- The function has run the command already; the machine has only begun it.
    have hBefore (value : Param) :=
      Param.evaluateFrom_append a.shell [command] [] (values ++ [value]) rest
    simp only [Execution.ofProgress, TaskEffect.ofExecution, Answers.rest, Param.evaluateOn]
    change a.afterEvaluation cfg index q now
        (match Param.ofOutcome command (a.shell command) with
          | .error e => ⟨[command], .failed e⟩
          | .ok value =>
            Param.evaluateFrom (Param.memoryless a.shell) [command] (values ++ [value]) rest) = _
    cases Param.ofOutcome command (a.shell command) with
    | error e => rfl
    | ok value =>
      dsimp only
      rw [show [command] = [command] ++ [] from rfl, hBefore value]
      simp [afterEvaluation, Account.after]

/-- **A move does the next piece**: what a task does and what is left to do for it afterwards is what
was left to do before. -/
theorem rest_of_effect? {t : Task} {m : Move} {e : TaskEffect} (hAllowed : a.AllowsTask cfg t m)
    (hIndex : m.index? = some index) (hEffect : t.effect? cfg false m = some e) :
    e.fires = false ∧
      a.rest cfg index t = (a.rest cfg index ⟨t.query, e.phase⟩).after e.externals := by
  cases TaskMove.of_effect? hEffect with
  | start i now hPhase =>
    cases hIndex
    -- The clock reads the same for all queries, whenever their tasks start.
    obtain rfl : now = a.now := hAllowed
    refine ⟨ofExecution_fires .., ?_⟩
    rw [rest, hPhase]
    simp only [Param.evaluateFrom_eq_evaluateOn]
    exact afterEvaluation_effect a.now _
  | @commandEnds i outcome now values command rest hUnfired hPhase =>
    cases hIndex
    obtain rfl := hAllowed _ _ _ _ hPhase
    refine ⟨ofExecution_fires .., ?_⟩
    rw [Answers.rest, hPhase]
    simp only [Execution.resumeCommand]
    cases Param.ofOutcome command (a.shell command) with
    | error e => rfl
    | ok value =>
      simp only [Param.evaluateFrom_eq_evaluateOn]
      exact afterEvaluation_effect now _
  | @sourceReplies i reply now params hUnfired hPhase =>
    cases hIndex
    have hReply := hAllowed _ _ hPhase
    rw [rest, hPhase]
    simp only [afterCall]
    cases hAnswer : a.source ⟨t.query.sql, params⟩ with
    | none =>
      -- Whatever is reported of the crash, the account leaves it out.
      rw [hAnswer] at hReply
      obtain ⟨report, rfl⟩ := hReply
      exact ⟨rfl, rfl⟩
    | some answer =>
      rw [hAnswer] at hReply
      obtain rfl : reply = .answered answer false := hReply
      exact ⟨rfl, afterExtraction_effect _⟩
  | @exportReplies i reply points hUnfired hPhase =>
    cases hIndex
    have hReply := hAllowed _ hPhase
    rw [rest, hPhase]
    simp only [afterBegin]
    cases hAnswer : a.exporter (t.query.serviceOr cfg.defaultService) points with
    | none =>
      rw [hAnswer] at hReply
      obtain ⟨report, rfl⟩ := hReply
      exact ⟨rfl, rfl⟩
    | some answer =>
      rw [hAnswer] at hReply
      obtain rfl : reply = .answered answer false := hReply
      cases answer with
      | error e => exact ⟨rfl, rfl⟩
      | ok u => exact ⟨rfl, rfl⟩
  | wake i hFired => cases hFired

end Answers

end SqlMetrics.Collector
