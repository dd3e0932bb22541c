import SqlMetrics.Proofs.Collector.Blame
import SqlMetrics.Proofs.Error.Chain
import SqlMetrics.Proofs.Startup.DryRun

/-!
# What is told of a failure

A session that fails tells so in one line, and this line names what is at the root of the failure.

- **Errors**: `Failure.error` is the error behind a failure, which says the same
  (`Failure.message_error`).
- **Lines**: `Tells` says where a session tells of its failure (`tells_of_failure`).
- **Queries**: a failure that names a query comes from the task of this query
  (`exists_task_of_failure`).
- **Roots**: `failures_name_their_roots` puts this together with the chains of causes.
-/

namespace SqlMetrics.Startup

open CommandLine (Invocation)
open Collector (Timeline)

variable {host : Host} {i : Invocation} {f : Failure}

/-! ## Errors -/

/-- The error behind a failure.  Those of the standard input, of decoding and of the reader of queries
are from elsewhere. -/
def Failure.error : Failure → AnyError
  | .settings cause | .loading cause => .settings cause
  | .input detail | .parsing detail => .foreign detail []
  | .reading cause => .fetching cause
  | .decoding cause => .foreign cause.message []
  | .exporter cause => .building cause
  | .source cause => .source cause
  | .collection cause => .collector cause

theorem Failure.message_error (f : Failure) : f.error.message = f.message := by
  cases f <;> rfl

/-! ## Where collections fail -/

/-- Whether it was the collector that failed. -/
def Failure.IsCollection : Failure → Prop
  | .collection _ => True
  | _ => False

/-- Whether a stage fails in no way that a collection does. -/
def Spared {α : Type} (x : Staged α) : Prop :=
  ∀ f, x.result = .error f → ¬ f.IsCollection

namespace Spared

variable {α β : Type}

theorem done (a : α) : Spared (pure a) := nofun

theorem act (effect : Effect) : Spared (Staged.act effect) := nofun

theorem bind {x : Staged α} {next : α → Staged β} (hFirst : Spared x)
    (hNext : ∀ a, Spared (next a)) : Spared (x >>= next) := by
  intro f hFails
  rcases result_bind_eq_error.mp hFails with hEarly | ⟨a, -, hLate⟩
  · exact hFirst f hEarly
  · exact hNext a f hLate

theorem ofExcept {ε : Type} {failure : ε → Failure} (h : ∀ e, ¬ (failure e).IsCollection)
    (r : Except ε α) : Spared (Staged.ofExcept failure r) := by
  intro f hFails
  obtain ⟨e, -, rfl⟩ := result_ofExcept_eq_error.mp hFails
  exact h e

theorem checkedSettings (host : Host) (i : Invocation) : Spared (checkedSettings host i) := by
  refine .bind ?_ fun base => .bind (.ofExcept (fun _ => id) _) fun _ => .done _
  cases i.config with
  | none => exact .done _
  | some path => exact .bind (.act _) fun _ => .ofExcept (fun _ => id) _

theorem resolvedSettings (registry : Registry) (s : Settings) :
    Spared (resolvedSettings registry s) := by
  intro f hFails
  unfold Startup.resolvedSettings at hFails
  dsimp only at hFails
  split at hFails <;> cases hFails
  exact id

theorem queriesAt (host : Host) (registry : Registry) (location : String) :
    Spared (queriesAt host registry location) := by
  refine .bind ?_ fun document => .bind (.ofExcept (fun _ => id) _) fun text =>
    .ofExcept (fun _ => id) _
  unfold queryDocument
  split <;> exact .bind (.act _) fun _ => .bind (.ofExcept (fun _ => id) _) fun _ => .done _

theorem prepare (host : Host) (i : Invocation) : Spared (prepare host i) :=
  .bind (checkedSettings host i) fun _ => .bind (.act _) fun _ =>
    .bind (resolvedSettings _ _) fun _ => .bind (queriesAt host _ _) fun _ => .done _

theorem builtExporter (s : Settings) : Spared (builtExporter s) :=
  .bind (.act _) fun _ => .ofExcept (fun _ => id) _

theorem openedSource (host : Host) (s : Settings) : Spared (openedSource host s) :=
  .bind (.ofExcept (fun _ => id) _) fun _ => .bind (.act _) fun _ =>
    .bind (.ofExcept (fun _ => id) _) fun _ => .done _

end Spared

/-- The run of the collector for what has been prepared. -/
def collectorRun (host : Host) (plan : Plan) (exporter : Exporter) (source : DataSource) : Timeline :=
  Timeline.run ⟨plan.settings.maxConcurrency, plan.settings.defaultService⟩
    (host.world source exporter) plan.queries

/-- If an invocation fails as a collection does, then it has been prepared, and the run of the
collector has failed. -/
theorem exists_collectorRun {e : CollectorError}
    (h : (run host i).result = .error (.collection e)) :
    ∃ plan exporter source, (prepare host i).result = .ok plan ∧
      (builtExporter plan.settings).result = .ok exporter ∧
      (openedSource host plan.settings).result = .ok source ∧
      collectionResult (collectorRun host plan exporter source) = .error (.collection e) := by
  rcases result_bind_eq_error.mp h with hPrepare | ⟨plan, hPlan, hRest⟩
  · exact absurd trivial (Spared.prepare host i _ hPrepare)
  · split at hRest
    · cases hRest
    · rcases result_bind_eq_error.mp hRest with hExporter | ⟨exporter, hExporter, hRest⟩
      · exact absurd trivial (Spared.builtExporter _ _ hExporter)
      · rcases result_bind_eq_error.mp hRest with hSource | ⟨source, hSource, hRest⟩
        · exact absurd trivial (Spared.openedSource host _ _ hSource)
        · rw [result_act_bind] at hRest
          exact ⟨plan, exporter, source, hPlan, hExporter, hSource, hRest⟩

theorem of_collectionResult_eq_error {t : Timeline} {e : CollectorError}
    (h : collectionResult t = .error (.collection e)) :
    e = .cancelled ∨ t.report.result = some (.error e) := by
  unfold collectionResult at h
  cases hResult : t.report.result with
  | none =>
    rw [hResult] at h
    cases h
    exact .inl rfl
  | some r =>
    rw [hResult] at h
    cases r with
    | ok u => cases h
    | error cause =>
      cases h
      exact .inr rfl

/-- A failure that names a query is the one that the task of this query ended with. -/
theorem exists_task_of_failure {index : Nat} {cause : QueryError}
    (h : (run host i).result = .error (.collection (.query index cause))) :
    ∃ plan exporter source q, (prepare host i).result = .ok plan ∧
      (builtExporter plan.settings).result = .ok exporter ∧
      (openedSource host plan.settings).result = .ok source ∧
      plan.queries[index]? = some q ∧
      (collectorRun host plan exporter source).state.tasks[index]? =
        some ⟨q, .ended (some (.query index cause))⟩ := by
  obtain ⟨plan, exporter, source, hPlan, hExporter, hSource, hFails⟩ := exists_collectorRun h
  rcases of_collectionResult_eq_error hFails with hCancelled | hReport
  · cases hCancelled
  · obtain ⟨q, hQuery, hTask⟩ := Timeline.exists_task_of_report hReport
    exact ⟨plan, exporter, source, q, hPlan, hExporter, hSource, hQuery, hTask⟩

/-! ## Lines -/

/-- Where a session tells of its failure. -/
inductive Tells (s : Session) (f : Failure) : Prop where
  /-- The log is not open, and there is one line on the error output. -/
  | complaint (hOutput : s.errorOutput = CommandLine.programName ++ ": " ++ f.message ++ "\n")
  /-- It is the last entry of the log.  If the filter lets it pass, it is the last line on the error
  output. -/
  | logged {noted : List Log.Entry} (hEntries : s.entries = noted ++ [Log.failed f.message])
      (hPlain : ∀ filter outcome, s = .ran filter outcome →
        filter.passes (Log.failed f.message) = true →
          Session.logFormat? s.effects ≠ some "json" → EndsIn s.errorOutput (f.message ++ "\n"))

theorem endsIn_plainLine (message : String) : EndsIn (Log.failed message).plainLine message := by
  have hField : EndsIn (Log.failed message).plainLine ("error" ++ "=" ++ message) := .append _ _
  exact hField.trans (.append _ _)

/-- The last entry that is written is the last line on the error output. -/
theorem endsIn_errorOutput {s : Session} {written : List Log.Entry} {entry : Log.Entry}
    (hLog : s.log = written ++ [entry]) (hPlain : Session.logFormat? s.effects ≠ some "json") :
    EndsIn s.errorOutput (entry.plainLine ++ "\n") := by
  have hFormat : ¬ (Session.logFormat? s.effects == some "json") = true := by simpa using hPlain
  simp only [Session.errorOutput, hLog, if_neg hFormat, List.map_append, String.join_append]
  rw [← String.append_assoc]
  simpa using EndsIn.append _ (entry.plainLine ++ "\n")

section Ran

variable {filter : Log.Filter} {effects : List Effect}

theorem tells_of_unopened (hFormat : Session.logFormat? effects = none)
    (hEntries : Session.entries (.ran filter ⟨effects, .error f⟩) = []) :
    Tells (.ran filter ⟨effects, .error f⟩) f := by
  refine .complaint ?_
  simp [Session.errorOutput, Session.log, hEntries, Session.complaint?, hFormat]

theorem tells_of_opened {format : String} (hFormat : Session.logFormat? effects = some format) :
    Tells (.ran filter ⟨effects, .error f⟩) f := by
  refine .logged (entries_of_opened hFormat) fun _ _ hRan hPasses hPlain => ?_
  cases hRan
  have hLog : Session.log (.ran filter ⟨effects, .error f⟩) =
      (notedEntries effects).filter filter.passes ++ [Log.failed f.message] := by
    simp [Session.log, entries_of_opened hFormat, hPasses]
  obtain ⟨lead, hLead⟩ := endsIn_plainLine f.message
  refine (endsIn_errorOutput hLog hPlain).trans ?_
  rw [hLead, String.append_assoc]
  exact .append _ _

end Ran

theorem exists_invocation {args : List String}
    (hFails : (Session.start host args).failure? = some f) :
    ∃ i, CommandLine.parse args host.environment = .ok (.invocation i) ∧
      (run host i).result = .error f := by
  cases hParse : CommandLine.parse args host.environment with
  | error e => simp [Session.start, hParse, Session.failure?] at hFails
  | ok command =>
    cases command with
    | help | version => simp [Session.start, hParse, Session.failure?] at hFails
    | invocation i => exact ⟨i, rfl, (failure?_start hParse).mp hFails⟩

/-- A session that fails tells of one failure of one stage. -/
theorem exists_tellsOnce {args : List String}
    (hParse : CommandLine.parse args host.environment = .ok (.invocation i))
    (hFails : (run host i).result = .error f) :
    ∃ stage, TellsOnce (Session.start host args) stage f := by
  rcases goThrough_cases host i (stages i) {} with ⟨effects, p, hAll⟩ |
    ⟨passed, stage, later, before, p, own, e, hSplit, hPassed, hStage⟩
  · rw [run_of_success hAll] at hFails
    cases hFails
  · have hRun := run_of_failure hSplit hPassed hStage
    obtain rfl : e = f := by simpa [hRun] using hFails
    refine ⟨stage, ?_⟩
    rw [start_eq_ran hParse, hRun]
    exact tellsOnce_of_failure _ hSplit hPassed hStage

/-- **Lines**: a session that fails tells so. -/
theorem tells_of_failure {args : List String}
    (hFails : (Session.start host args).failure? = some f) : Tells (Session.start host args) f := by
  obtain ⟨i, hParse, hRun⟩ := exists_invocation hFails
  obtain ⟨stage, -, hTells⟩ := exists_tellsOnce hParse hRun
  rw [start_eq_ran hParse] at hTells ⊢
  obtain ⟨effects, hOutcome⟩ : ∃ effects, run host i = ⟨effects, .error f⟩ := ⟨_, by rw [← hRun]⟩
  rw [hOutcome] at hTells ⊢
  cases hFormat : Session.logFormat? effects with
  | some format => exact tells_of_opened hFormat
  | none =>
    split at hTells
    · exact tells_of_unopened hFormat hTells.2
    · simp [Session.complaint?, hFormat] at hTells

/-! ## Roots -/

/-- **Failures name their roots.**
1. A chain of causes from any error on has at most three more errors, and follows the causes that
   the error has until it comes to an error from elsewhere or to one without causes.  The text of the
   error ends with the text of every error that it leads to.  Just one of these names no cause.
2. However the tasks of a run take their turns, a failure that names a query is the one that the task
   of this very query ended with.
3. A session that fails tells so, and the text that it tells ends with the one of the root.  If a
   query failed, the text begins with its index in the list of queries, and the failure is the one
   that the task of this query ended with. -/
theorem failures_name_their_roots :
    (∀ e : AnyError,
      (∀ chain, (e :: chain).IsChain AnyError.CausedBy → chain.length ≤ 3) ∧
      (∀ cause, e.CausedBy cause → e.causes = cause.message :: cause.causes) ∧
      (e.cause? = none → e.causes ≠ [] → ∃ text further, e = .foreign text further) ∧
      (∀ other, e.LeadsTo other → EndsIn e.message other.message) ∧
      ∃! root, e.LeadsTo root ∧ root.cause? = none) ∧
    (∀ (cfg : Collector.Settings) (queries : List Query) (fired : Bool)
        (moves : List Collector.Move) (s : Collector.State) (index : Nat) (cause : QueryError),
      (Collector.State.init cfg queries fired).run? cfg moves = some s →
      s.returned = some (.error (.query index cause)) →
        ∃ q, queries[index]? = some q ∧
          s.tasks[index]? = some ⟨q, .ended (some (.query index cause))⟩) ∧
    ∀ (host : Host) (args : List String) (f : Failure),
      (Session.start host args).failure? = some f →
        Tells (Session.start host args) f ∧
        (∀ root, f.error.LeadsTo root → root.cause? = none →
          EndsIn f.message root.message) ∧
        ∀ index cause, f = .collection (.query index cause) →
          f.message = "query #" ++ toString index ++ ": " ++ cause.message ∧
          ∃ i plan exporter source q,
            CommandLine.parse args host.environment = .ok (.invocation i) ∧
            (prepare host i).result = .ok plan ∧
            (builtExporter plan.settings).result = .ok exporter ∧
            (openedSource host plan.settings).result = .ok source ∧
            plan.queries[index]? = some q ∧
            (collectorRun host plan exporter source).state.tasks[index]? =
              some ⟨q, .ended (some (.query index cause))⟩ := by
  refine ⟨fun e => ⟨fun _ => AnyError.length_le_of_isChain, fun _ h => h.laws.causes_eq,
    AnyError.eq_foreign_of_cause?_eq_none, fun _ h => h.endsIn, ?root⟩, ?blame,
    fun host args f hFails => ⟨tells_of_failure hFails, ?_⟩⟩
  case root =>
    obtain ⟨root, hLeads, hRoot⟩ := e.exists_root
    exact ⟨root, ⟨hLeads, hRoot⟩, fun other h => hLeads.root_unique hRoot h.1 h.2⟩
  case blame =>
    intro cfg queries fired moves s index cause hRun hReturned
    exact Collector.exists_task_to_blame hRun hReturned List.mem_cons_self
  obtain ⟨i, hParse, hRun⟩ := exists_invocation hFails
  refine ⟨fun root hLeads _ => ?_, ?_⟩
  · rw [← f.message_error]
    exact hLeads.endsIn
  · rintro index cause rfl
    obtain ⟨plan, exporter, source, q, hTask⟩ := exists_task_of_failure hRun
    exact ⟨rfl, i, plan, exporter, source, q, hParse, hTask⟩

/-- Of two queries the second names a column that is not there.  The text that is told ends with what
the database says, and begins with the index of this query. -/
theorem failures_name_their_roots_missing_column :
    let host : Host :=
      .offline [] ⟨[[]], [], []⟩ (Text.encode "[{sql: SELECT 1}, {sql: SELECT x}]") 0
    let args := ["--dsn", "sqlite://:memory:", "--exporter", "stdout"]
    let cause : SqliteError := .noSuchColumn "x" "SELECT x" 7
    ∃ f, (Session.start host args).failure? = some f ∧ Tells (Session.start host args) f ∧
      EndsIn f.message cause.message ∧
      f.message = "query #1: query failed: " ++ cause.message := by
  intro host args cause
  have hFails : (Session.start host args).failure? =
      some (.collection (.query 1 (.source (.sqlite cause)))) := by decide +kernel
  obtain ⟨hTells, hEnds, hQuery⟩ := failures_name_their_roots.2.2 host args _ hFails
  refine ⟨_, hFails, hTells, hEnds (.foreign cause.message cause.causes) ?_ rfl, ?_⟩
  · exact .head rfl (.head rfl (.head rfl .refl))
  · rw [(hQuery 1 _ rfl).1]
    rfl

/-- What the system says of a standard input that it refuses to read is told as it is. -/
example :
    let host : Host := { Host.offline [] ⟨[[]], [], []⟩ [] 0 with
      input := .error (.refused "Input/output error (os error 5)") }
    (Session.start host ["--dsn", "sqlite://:memory:"]).errorOutput =
      "ERROR failed to execute error=Input/output error (os error 5)\n" := by
  decide +kernel

end SqlMetrics.Startup
