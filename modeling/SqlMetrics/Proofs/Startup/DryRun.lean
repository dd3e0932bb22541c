import SqlMetrics.Proofs.CommandLine.Flag
import SqlMetrics.Proofs.Source.Dsn
import SqlMetrics.Proofs.Startup.Outcome

/-!
# What a dry run vouches for

A dry run goes through the preparation of a run in earnest and through nothing else, so it finds what
is wrong with the settings that the preparation looks at, with what they refer to and with the
queries.  The exporter and the data source are looked at after it.

- **Exporters**: `Exporter.Refuses` says which settings an exporter cannot be set up with.
- **Starting**: `Misses` says what is wrong with settings that a dry run does not look at.
- **In earnest**: `dry_run_covers` sets a dry run beside the run in earnest, and
  `dry_run_misses_settings` has settings that a dry run passes and the run in earnest does not.
-/

namespace SqlMetrics

/-! ## Exporters -/

/-- An exporter is refused for its name, or for the base of the URLs that it posts to. -/
inductive Exporter.Refuses (name apiKey apiBase : String) : BuildError → Prop where
  | name (hUnknown : name ∉ Exporter.names) : Refuses name apiKey apiBase (.unknown name)
  | base {cause : ExportError} (hName : name = "mackerel")
      (hClient : Mackerel.Client.setUp apiKey apiBase = .error cause) :
    Refuses name apiKey apiBase (.refused cause)

theorem Exporter.build_eq_error_iff {name apiKey apiBase : String} {e : BuildError} :
    build name apiKey apiBase = .error e ↔ Refuses name apiKey apiBase e := by
  constructor
  · intro h
    unfold build at h
    split at h
    · cases h
    · split at h <;> cases h
      exact .base rfl ‹_›
    · next hStdout hMackerel =>
      cases h
      refine .name ?_
      simp only [names, List.mem_cons, List.not_mem_nil, or_false, not_or]
      exact ⟨hMackerel, hStdout⟩
  · intro h
    cases h with
    | name hUnknown =>
      simp only [names, List.mem_cons, List.not_mem_nil, or_false, not_or] at hUnknown
      unfold build
      split
      · exact absurd rfl hUnknown.2
      · exact absurd rfl hUnknown.1
      · rfl
    | base hName hClient => simp [build, hName, hClient]

namespace Startup

open CommandLine (Invocation dryRunFlag)

variable {host : Host} {i : Invocation}

/-! ## Starting -/

/-- What is wrong with settings that only a run in earnest looks at. -/
inductive Misses (s : Settings) : Failure → Prop where
  | exporter {e : BuildError}
      (hRefuses : Exporter.Refuses s.exporter s.mackerelApiKey s.mackerelApiBase e) :
    Misses s (.exporter e)
  /-- The name of the data source is looked at after the exporter is set up. -/
  | source {e : SourceError} {exporter : Exporter}
      (hExporter : Exporter.build s.exporter s.mackerelApiKey s.mackerelApiBase = .ok exporter)
      (hRefuses : DataSource.Refuses s.dsn e) :
    Misses s (.source e)

/-- A failure for which no setting is to blame: a database cannot be opened or connected to, or a
query fails. -/
def Failure.IsOperational : Failure → Prop
  | .source (.notOpened _ _) | .source (.notConnected _ _) | .collection _ => True
  | _ => False

theorem result_bind_eq_error {α β : Type} {x : Staged α} {f : α → Staged β} {e : Failure} :
    (x >>= f).result = .error e ↔
      x.result = .error e ∨ ∃ a, x.result = .ok a ∧ (f a).result = .error e := by
  cases hResult : x.result with
  | error cause => simp [Staged.bind_of_error hResult]
  | ok a => simp [Staged.bind_of_ok hResult]

theorem result_act_bind {α : Type} (effect : Effect) (f : Unit → Staged α) :
    (Staged.act effect >>= f).result = (f ()).result := by
  rw [Staged.bind_of_ok rfl]

section OfExcept

variable {ε α : Type} {failure : ε → Failure} {r : Except ε α}

theorem result_ofExcept_eq_ok {a : α} :
    (Staged.ofExcept failure r).result = .ok a ↔ r = .ok a := by
  cases r <;> simp [Staged.ofExcept, Except.mapError]

theorem result_ofExcept_eq_error {f : Failure} :
    (Staged.ofExcept failure r).result = .error f ↔ ∃ e, r = .error e ∧ failure e = f := by
  cases r <;> simp [Staged.ofExcept, Except.mapError]

end OfExcept

theorem result_builtExporter_eq_ok {s : Settings} {exporter : Exporter} :
    (builtExporter s).result = .ok exporter ↔
      Exporter.build s.exporter s.mackerelApiKey s.mackerelApiBase = .ok exporter := by
  rw [builtExporter, result_act_bind, result_ofExcept_eq_ok]

theorem result_builtExporter_eq_error {s : Settings} {f : Failure} :
    (builtExporter s).result = .error f ↔ ∃ e,
      Exporter.Refuses s.exporter s.mackerelApiKey s.mackerelApiBase e ∧ .exporter e = f := by
  rw [builtExporter, result_act_bind, result_ofExcept_eq_error]
  simp only [Exporter.build_eq_error_iff]

/-- A data source is not opened because its name is refused, or because the database is at fault. -/
theorem of_result_openedSource_eq_error {s : Settings} {f : Failure}
    (h : (openedSource host s).result = .error f) :
    (∃ e, f = .source e ∧ DataSource.Refuses s.dsn e) ∨ f.IsOperational := by
  unfold openedSource at h
  rw [result_bind_eq_error] at h
  rcases h with hName | ⟨source, -, hOpening⟩
  · obtain ⟨e, hDsn, rfl⟩ := result_ofExcept_eq_error.mp hName
    exact .inl ⟨e, rfl, DataSource.ofDsn_eq_error_iff.mp hDsn⟩
  · rw [result_act_bind, result_bind_eq_error] at hOpening
    rcases hOpening with hDatabase | ⟨-, -, hNone⟩
    · obtain ⟨e, hOpen, rfl⟩ := result_ofExcept_eq_error.mp hDatabase
      rcases DataSource.openWith_eq_error hOpen with ⟨path, cause, rfl⟩ | ⟨kind, cause, rfl⟩ <;>
        exact .inr trivial
    · cases hNone

theorem result_openedSource_of_refuses {s : Settings} {e : SourceError}
    (h : DataSource.Refuses s.dsn e) : (openedSource host s).result = .error (.source e) := by
  unfold openedSource
  rw [result_bind_eq_error, result_ofExcept_eq_error]
  exact .inl ⟨e, DataSource.ofDsn_eq_error_iff.mpr h, rfl⟩

/-- Once everything is set up, only a query fails. -/
theorem isOperational_of_collect {plan : Plan} {exporter : Exporter} {source : DataSource}
    {f : Failure} (h : (collect host plan exporter source).result = .error f) :
    f.IsOperational := by
  unfold collect at h
  dsimp only [collectionResult] at h
  cases hReturned : (Collector.Timeline.report _).result.getD (.error .cancelled) with
  | error e =>
    rw [hReturned] at h
    cases h
    trivial
  | ok u =>
    rw [hReturned] at h
    cases h

/-- A run in earnest fails for what is wrong with its settings, and otherwise not for them. -/
theorem of_result_start_eq_error {plan : Plan} {f : Failure}
    (h : (start host plan).result = .error f) : Misses plan.settings f ∨ f.IsOperational := by
  unfold start at h
  rw [result_bind_eq_error] at h
  rcases h with hExporter | ⟨exporter, hExporter, hRest⟩
  · obtain ⟨e, hRefuses, rfl⟩ := result_builtExporter_eq_error.mp hExporter
    exact .inl (.exporter hRefuses)
  · rw [result_bind_eq_error] at hRest
    rcases hRest with hSource | ⟨source, -, hRest⟩
    · refine (of_result_openedSource_eq_error hSource).imp ?_ id
      rintro ⟨e, rfl, hRefuses⟩
      exact .source (result_builtExporter_eq_ok.mp hExporter) hRefuses
    · rw [result_act_bind] at hRest
      exact .inr (isOperational_of_collect hRest)

theorem result_start_of_misses {plan : Plan} {f : Failure} (h : Misses plan.settings f) :
    (start host plan).result = .error f := by
  unfold start
  rw [result_bind_eq_error]
  cases h with
  | exporter hRefuses => exact .inl (result_builtExporter_eq_error.mpr ⟨_, hRefuses, rfl⟩)
  | source hExporter hRefuses =>
    refine .inr ⟨_, result_builtExporter_eq_ok.mpr hExporter, ?_⟩
    rw [result_bind_eq_error]
    exact .inl (result_openedSource_of_refuses hRefuses)

/-! ## In earnest -/

theorem run_of_prepared {plan : Plan} (hPrepared : (prepare host i).result = .ok plan) :
    run host i = ⟨(prepare host i).effects ++
        (if i.dryRun then Staged.act (.printed plan.summary) else start host plan).effects,
      (if i.dryRun then Staged.act (.printed plan.summary) else start host plan).result⟩ := by
  rw [run, Staged.bind_of_ok hPrepared]

theorem failure?_start {args : List String}
    (hParse : CommandLine.parse args host.environment = .ok (.invocation i)) {f : Failure} :
    (Session.start host args).failure? = some f ↔ (run host i).result = .error f := by
  rw [start_eq_ran hParse, Session.failure?]
  cases (run host i).result <;> simp

/-- **What a dry run vouches for.**  Where a dry run succeeds, it has gone through the preparation and
told what it has found, and the same command line without the flag goes through the same preparation
first.  If the run in earnest fails then:
1. it does not fail in the preparation;
2. it fails for what is wrong with the exporter's name or base, or with the form or the driver of the
   name of the data source, whenever something is;
3. otherwise it fails only for what no setting is to blame for. -/
theorem dry_run_covers (host : Host) (args : List String) (i : Invocation)
    (hParse : CommandLine.parse args host.environment = .ok (.invocation i))
    (hDry : i.dryRun = true) (hExit : (Session.start host args).exitCode = 0) :
    let earnest := Session.start host (args.erase dryRunFlag)
    ∃ plan, (prepare host i).result = .ok plan ∧
      (Session.start host args).effects =
        (prepare host i).effects ++ [.printed plan.summary] ∧
      (prepare host i).effects <+: earnest.effects ∧
      (∀ f, Misses plan.settings f → earnest.failure? = some f) ∧
      ∀ f, earnest.failure? = some f → Misses plan.settings f ∨ f.IsOperational := by
  intro earnest
  have hErase := CommandLine.parse_erase hParse hDry
  have hRan := start_eq_ran hParse
  obtain ⟨plan, hPrepared⟩ : ∃ plan, (prepare host i).result = .ok plan := by
    rw [hRan] at hExit
    cases hResult : (run host i).result with
    | error e => simp [Session.exitCode, hResult] at hExit
    | ok u =>
      obtain ⟨plan, hPrepared, -⟩ := result_bind_eq_ok.mp hResult
      exact ⟨plan, hPrepared⟩
  -- The flag plays no part in the preparation.
  have hSame : prepare host i.inEarnest = prepare host i := rfl
  have hEarnest : run host i.inEarnest =
      ⟨(prepare host i).effects ++ (start host plan).effects, (start host plan).result⟩ :=
    run_of_prepared (hSame ▸ hPrepared)
  refine ⟨plan, hPrepared, ?_, ?_, fun f hMisses => ?_, fun f hFails => ?_⟩
  · rw [hRan, Session.effects, run_of_prepared hPrepared, hDry]
    rfl
  · rw [show earnest = _ from start_eq_ran hErase, Session.effects, hEarnest]
    exact List.prefix_append _ _
  · rw [failure?_start hErase, hEarnest]
    exact result_start_of_misses hMisses
  · rw [failure?_start hErase, hEarnest] at hFails
    exact of_result_start_eq_error hFails

/-- A dry run with the name of no exporter succeeds, and the run in earnest fails for it. -/
theorem dry_run_covers_unknown_exporter :
    let host : Host := .offline [] ⟨[[]], [], []⟩ (Text.encode "[]") 0
    let args := ["--dry-run", "--dsn", "sqlite://:memory:", "--exporter", "graphite"]
    let i : Invocation := {
      config := none
      overrides := { dsn := some "sqlite://:memory:", exporter := some "graphite" }
      dryRun := true }
    CommandLine.parse args host.environment = .ok (.invocation i) ∧
      (Session.start host args).exitCode = 0 ∧
      (Session.start host (args.erase dryRunFlag)).failure? =
        some (.exporter (.unknown "graphite")) := by
  intro host args i
  have hParse : CommandLine.parse args host.environment = .ok (.invocation i) := by cbv
  have hExit : (Session.start host args).exitCode = 0 := by decide +kernel
  have hExporter : (prepare host i).result.map (fun plan => plan.settings.exporter) =
      .ok "graphite" := by decide +kernel
  obtain ⟨plan, hPrepared, -, -, hMisses, -⟩ := dry_run_covers host args i hParse rfl hExit
  have hName : plan.settings.exporter = "graphite" := by
    simpa [hPrepared, Except.map] using hExporter
  refine ⟨hParse, hExit, hMisses _ (.exporter ?_)⟩
  rw [hName]
  exact .name (by decide)

/-- Settings that a dry run passes and the run in earnest does not: the name of no exporter, and the
name of a data source without a driver. -/
theorem dry_run_misses_settings :
    let host : Host := .offline [] ⟨[[]], [], []⟩ (Text.encode "[]") 0
    let unknown := ["--dsn", "sqlite://:memory:", "--exporter", "graphite"]
    let formless := ["--dsn", "nonsense", "--exporter", "stdout"]
    ((Session.start host ("--dry-run" :: unknown)).exitCode = 0 ∧
      (Session.start host unknown).failure? = some (.exporter (.unknown "graphite"))) ∧
    (Session.start host ("--dry-run" :: formless)).exitCode = 0 ∧
      (Session.start host formless).failure? = some (.source (.invalidDsn "nonsense")) := by
  refine ⟨⟨?_, ?_⟩, ?_, ?_⟩ <;> decide +kernel

end Startup

end SqlMetrics
