import SqlMetrics.Proofs.Startup.Stages

/-!
# How an invocation ends

An invocation passes all its stages, or the first one that fails decides its exit code, the error
that is told, and what was done to the world.

- **Success**: `result_goThrough_stages` says when all stages pass.
- **Telling**: a failure is told once, and where it should be (`TellsOnce`).
- **Outcome**: `staged_startup` puts them together.
-/

namespace SqlMetrics.Startup

open CommandLine (Invocation)

variable {host host' : Host} {i : Invocation}

/-! ## Success -/

/-- The collector comes to success just if its run has returned success. -/
theorem collectionResult_eq_ok_iff (t : Collector.Timeline) :
    collectionResult t = .ok () ↔ t.state.returned = some (.ok ()) := by
  unfold collectionResult Collector.Timeline.report
  cases hReturned : t.state.returned with
  | none => simp [Except.mapError]
  | some r =>
    cases r with
    | ok u => simp [Except.mapError]
    | error first =>
      -- The errors may be told in another order, but there is one.
      dsimp only
      split <;> simp [Except.mapError]

/-- Whether the collector returns success for what has been prepared: the exporter can be set up,
the data source can be opened, and the run of the queries returns success. -/
def CollectsWell (host : Host) (p : Progress) : Prop :=
  ∃ exporter source, (builtExporter p.settings).result = .ok exporter ∧
    (openedSource host p.settings).result = .ok source ∧
    (Collector.Timeline.run ⟨p.settings.maxConcurrency, p.settings.defaultService⟩
      (host.world source exporter) p.queries).state.returned = some (.ok ())

theorem result_bind_eq_ok {α β : Type} {x : Staged α} {f : α → Staged β} {b : β} :
    (x >>= f).result = .ok b ↔ ∃ a, x.result = .ok a ∧ (f a).result = .ok b := by
  cases hResult : x.result with
  | error e => simp [Staged.bind_of_error hResult]
  | ok a => simp [Staged.bind_of_ok hResult]

/-- The stages that only a run goes through that is not dry pass just if the collector returns
success. -/
theorem result_goThrough_collecting (p : Progress) :
    (∃ q, (goThrough host i [.building, .opening, .collecting] p).result = .ok q) ↔
      CollectsWell host p := by
  simp only [goThrough, List.foldlM_cons, List.foldlM_nil, Stage.act, bind_assoc, pure_bind,
    result_bind_eq_ok, CollectsWell]
  constructor
  · rintro ⟨q, exporter, hExporter, source, hSource, _, -, _, hCollect, -⟩
    exact ⟨exporter, source, hExporter, hSource, (collectionResult_eq_ok_iff _).mp hCollect⟩
  · rintro ⟨exporter, source, hExporter, hSource, hReturned⟩
    have hCollect : (collect host ⟨p.settings, p.queries⟩ exporter source).result = .ok () :=
      (collectionResult_eq_ok_iff _).mpr hReturned
    exact ⟨_, exporter, hExporter, source, hSource, (), rfl, (), hCollect, rfl⟩

/-- **All stages pass** just if the preparation passes and, unless the run is dry, the collector
returns success. -/
theorem result_goThrough_stages :
    (∃ q, (goThrough host i (stages i) {}).result = .ok q) ↔
      ∃ p, (goThrough host i preparation {}).result = .ok p ∧
        (i.dryRun = true ∨ CollectsWell host p) := by
  simp only [stages, goThrough_append, result_bind_eq_ok]
  rw [exists_comm]
  refine exists_congr fun p => ?_
  rw [exists_and_left]
  refine and_congr_right fun hPrepared => ?_
  cases i.dryRun with
  | true =>
    -- To tell what was found does not fail.
    have hTold : ∃ q, (goThrough host i [.telling] p).result = .ok q := ⟨p, rfl⟩
    simpa using hTold
  | false => simpa using result_goThrough_collecting p

/-! ## Before and after the log is opened -/

/-- Whether the log is not open before the stage has passed. -/
def Stage.isBeforeLog : Stage → Bool
  | .settingsFile | .overriding | .checking => true
  | _ => false

/-- Of the stages of an invocation, those before the log is opened are the first ones. -/
theorem passed_cases {passed later : List Stage} {stage : Stage}
    (h : stages i = passed ++ stage :: later) :
    (stage.isBeforeLog = true ∧ .checking ∉ passed ∧ ∀ s ∈ passed, s.isBeforeLog = true) ∨
      (stage.isBeforeLog = false ∧ .checking ∈ passed) := by
  have hLater : ∀ s ∈ (stages i).drop 3, s.isBeforeLog = false := by
    intro s hMem
    simp only [stages, preparation, List.cons_append, List.nil_append, List.drop_succ_cons,
      List.drop_zero, List.mem_cons] at hMem
    rcases hMem with rfl | rfl | rfl | rfl | rfl | rfl | rfl | hTail
    all_goals try rfl
    split at hTail <;> simp only [List.mem_cons, List.not_mem_nil, or_false] at hTail
    · rw [hTail]
      rfl
    · rcases hTail with rfl | rfl | rfl <;> rfl
  match passed, h with
  | [], h =>
    cases h
    exact .inl ⟨rfl, by simp, by simp⟩
  | [first], h =>
    cases h
    exact .inl ⟨rfl, by simp, by simp [Stage.isBeforeLog]⟩
  | [first, second], h =>
    cases h
    exact .inl ⟨rfl, by simp, by simp [Stage.isBeforeLog]⟩
  | first :: second :: third :: passed, h =>
    refine .inr ⟨hLater stage ?_, ?_⟩
    · rw [h]
      simp
    · simp only [stages, preparation, List.cons_append, List.cons.injEq] at h
      obtain ⟨-, -, rfl, -⟩ := h
      simp

/-- The log is open just if it has been opened. -/
theorem isSome_logFormat?_iff {effects : List Effect} :
    (Session.logFormat? effects).isSome = true ↔
      ∃ format level, .logOpened format level ∈ effects := by
  unfold Session.logFormat?
  rw [List.findSome?_isSome_iff]
  constructor
  · rintro ⟨x, hMem, hSome⟩
    split at hSome
    · exact ⟨_, _, hMem⟩
    · cases hSome
  · rintro ⟨format, level, hMem⟩
    exact ⟨_, hMem, rfl⟩

/-- The log is opened if the settings are good; else nothing is done. -/
theorem act_checking (p : Progress) :
    Stage.checking.act host i p =
      match p.settings.validate with
      | .error e => ⟨[], .error (.settings e)⟩
      | .ok () => ⟨[.logOpened p.settings.logFormat p.settings.logLevel], .ok p⟩ := by
  unfold Stage.act
  cases p.settings.validate <;> rfl

theorem mem_logOpened {passed : List Stage} {p q : Progress} (hMem : .checking ∈ passed)
    (hPassed : (goThrough host i passed p).result = .ok q) :
    ∃ format level, .logOpened format level ∈ (goThrough host i passed p).effects := by
  induction passed generalizing p with
  | nil => cases hMem
  | cons stage rest ih =>
    cases hFirst : (stage.act host i p).result with
    | error e =>
      rw [goThrough_cons, Staged.bind_of_error hFirst] at hPassed
      cases hPassed
    | ok r =>
      rw [goThrough_cons_of_ok hFirst] at hPassed ⊢
      rcases List.mem_cons.mp hMem with rfl | hRest
      · refine ⟨p.settings.logFormat, p.settings.logLevel, List.mem_append_left _ ?_⟩
        rw [act_checking] at hFirst ⊢
        cases hGood : p.settings.validate with
        | error e => simp [hGood] at hFirst
        | ok u => simp
      · obtain ⟨format, level, hOpened⟩ := ih hRest hPassed
        exact ⟨format, level, List.mem_append_right _ hOpened⟩

theorem effects_checking_of_error {p : Progress} {own : List Effect} {e : Failure}
    (h : Stage.checking.act host i p = ⟨own, .error e⟩) : own = [] := by
  rw [act_checking] at h
  split at h <;> cases h
  rfl

/-! ## Telling -/

/-- The failures that the log tells of. -/
def toldFailures (session : Session) : List Log.Entry :=
  session.entries.filter tellsFailure

/-- Whether a session tells of this failure of this stage, once and of no other: on a line of its
own if the log is not open yet, and else in the log. -/
def TellsOnce (session : Session) (stage : Stage) (e : Failure) : Prop :=
  session.failure? = some e ∧
    if stage.isBeforeLog then
      session.complaint? = some (CommandLine.programName ++ ": " ++ e.message ++ "\n") ∧
        session.entries = []
    else session.complaint? = none ∧ toldFailures session = [Log.failed e.message]

/-- Whether a session tells of no failure. -/
def TellsNone (session : Session) : Prop :=
  session.failure? = none ∧ session.complaint? = none ∧ toldFailures session = []

/-- The entries that the stages have made. -/
def notedEntries (effects : List Effect) : List Log.Entry :=
  effects.filterMap fun
    | .logged entry => some entry
    | _ => none

theorem mem_notedEntries {effects : List Effect} {entry : Log.Entry} :
    entry ∈ notedEntries effects ↔ .logged entry ∈ effects := by
  unfold notedEntries
  rw [List.mem_filterMap]
  constructor
  · rintro ⟨x, hMem, hSome⟩
    split at hSome
    · cases hSome
      exact hMem
    · cases hSome
  · intro hMem
    exact ⟨_, hMem, rfl⟩

section Entries

variable {filter : Log.Filter} {effects : List Effect} {e : Failure}

theorem entries_of_success :
    Session.entries (.ran filter ⟨effects, .ok ()⟩) = notedEntries effects := rfl

theorem entries_of_unopened (h : Session.logFormat? effects = none) :
    Session.entries (.ran filter ⟨effects, .error e⟩) = notedEntries effects := by
  simp only [Session.entries, Session.failure?, Session.effects, h]
  rfl

theorem entries_of_opened {format : String} (h : Session.logFormat? effects = some format) :
    Session.entries (.ran filter ⟨effects, .error e⟩) =
      notedEntries effects ++ [Log.failed e.message] := by
  simp only [Session.entries, Session.failure?, Session.effects, h]
  rfl

end Entries

/-- The entries that stages make do not tell of a failure. -/
theorem filter_notedEntries {stages : List Stage} {effects : List Effect}
    (hDoes : ∀ x ∈ effects, ∃ stage ∈ stages, stage.Does i x) :
    (notedEntries effects).filter tellsFailure = [] := by
  refine List.filter_eq_nil_iff.mpr fun entry hMem => ?_
  obtain ⟨stage, -, hStage⟩ := hDoes _ (mem_notedEntries.mp hMem)
  cases stage <;> simp only [Stage.Does] at hStage
  simp [hStage]

/-- Up to a failure, the stages do only what is their own to do. -/
theorem does_of_failure {passed : List Stage} {stage : Stage} {p q : Progress}
    {before own : List Effect} {e : Failure} (hPassed : goThrough host i passed p = ⟨before, .ok q⟩)
    (hFails : stage.act host i q = ⟨own, .error e⟩) :
    ∀ x ∈ before ++ own, ∃ s ∈ passed ++ [stage], s.Does i x := by
  intro x hMem
  rcases List.mem_append.mp hMem with hBefore | hOwn
  · have hEffect : x ∈ (goThrough host i passed p).effects := by rwa [hPassed]
    obtain ⟨s, hStage, hDoes⟩ := exists_does_of_mem hEffect
    exact ⟨s, List.mem_append_left _ hStage, hDoes⟩
  · have hEffect : x ∈ (stage.act host i q).effects := by rwa [hFails]
    exact ⟨stage, by simp, does_of_mem_act hEffect⟩

/-- Before the settings are checked, only a file is read. -/
theorem eq_settingsRead_of_does {s : Stage} {x : Effect} (hBefore : s.isBeforeLog = true)
    (hNot : s ≠ .checking) (hDoes : s.Does i x) : ∃ path, x = .settingsRead path := by
  cases s <;> cases hBefore
  · cases x <;> simp only [Stage.Does] at hDoes
    exact ⟨_, rfl⟩
  · cases hDoes
  · exact absurd rfl hNot

/-- **The first stage that fails is told of, once.** -/
theorem tellsOnce_of_failure (filter : Log.Filter) {passed later : List Stage} {stage : Stage}
    {p : Progress} {before own : List Effect} {e : Failure}
    (hSplit : stages i = passed ++ stage :: later)
    (hPassed : goThrough host i passed {} = ⟨before, .ok p⟩)
    (hFails : stage.act host i p = ⟨own, .error e⟩) :
    TellsOnce (.ran filter ⟨before ++ own, .error e⟩) stage e := by
  have hDoes := does_of_failure hPassed hFails
  refine ⟨rfl, ?_⟩
  rcases passed_cases hSplit with ⟨hBefore, hNotChecked, hEarlier⟩ | ⟨hAfter, hChecked⟩
  · rw [if_pos hBefore]
    -- Nothing has been done that opens the log or makes an entry.
    have hRead : ∀ x ∈ before ++ own, ∃ path, x = .settingsRead path := by
      intro x hMem
      rcases List.mem_append.mp hMem with hPast | hOwn
      · have hEffect : x ∈ (goThrough host i passed {}).effects := by rwa [hPassed]
        obtain ⟨s, hStage, hKind⟩ := exists_does_of_mem hEffect
        have hNot : s ≠ .checking := fun hSame => hNotChecked (hSame ▸ hStage)
        exact eq_settingsRead_of_does (hEarlier s hStage) hNot hKind
      · have hEffect : x ∈ (stage.act host i p).effects := by rwa [hFails]
        refine eq_settingsRead_of_does hBefore ?_ (does_of_mem_act hEffect)
        rintro rfl
        rw [effects_checking_of_error hFails] at hOwn
        cases hOwn
    have hUnopened : Session.logFormat? (before ++ own) = none := by
      refine Option.not_isSome_iff_eq_none.mp fun hOpen => ?_
      obtain ⟨format, level, hMem⟩ := isSome_logFormat?_iff.mp hOpen
      obtain ⟨path, hSame⟩ := hRead _ hMem
      cases hSame
    refine ⟨by simp [Session.complaint?, hUnopened], ?_⟩
    rw [entries_of_unopened hUnopened]
    refine List.eq_nil_iff_forall_not_mem.mpr fun entry hMem => ?_
    obtain ⟨path, hSame⟩ := hRead _ (mem_notedEntries.mp hMem)
    cases hSame
  · rw [if_neg (by simp [hAfter])]
    have hOpen : (Session.logFormat? (before ++ own)).isSome = true := by
      obtain ⟨format, level, hMem⟩ := mem_logOpened hChecked (congrArg Staged.result hPassed)
      rw [hPassed] at hMem
      exact isSome_logFormat?_iff.mpr ⟨format, level, List.mem_append_left _ hMem⟩
    obtain ⟨format, hFormat⟩ := Option.isSome_iff_exists.mp hOpen
    refine ⟨by simp [Session.complaint?, hFormat], ?_⟩
    rw [toldFailures, entries_of_opened hFormat, List.filter_append, filter_notedEntries hDoes]
    rfl

theorem tellsNone_of_success (filter : Log.Filter) {effects : List Effect}
    (hDoes : ∀ x ∈ effects, ∃ s ∈ stages i, s.Does i x) :
    TellsNone (.ran filter ⟨effects, .ok ()⟩) := by
  refine ⟨rfl, by simp [Session.complaint?], ?_⟩
  rw [toldFailures, entries_of_success, filter_notedEntries hDoes]

/-! ## Outcome -/

/-- Whether something is done to the world only after the preparation: an exporter is set up, a data
source is opened, or the collector does something outside itself. -/
def Effect.IsLate : Effect → Prop
  | .exporterBuilt _ | .sourceOpened _ | .collected _ => True
  | _ => False

/-- A dry run has no stage that does such a thing. -/
theorem not_isLate_of_dryRun (hDry : i.dryRun = true) {s : Stage} (hStage : s ∈ stages i)
    {x : Effect} (hDoes : s.Does i x) : ¬ x.IsLate := by
  intro hLate
  simp only [stages, preparation, hDry, if_true, List.cons_append, List.nil_append, List.mem_cons,
    List.not_mem_nil, or_false] at hStage
  rcases hStage with rfl | rfl | rfl | rfl | rfl | rfl | rfl | rfl | rfl | rfl | rfl
  all_goals cases x <;> first | exact hLate | exact hDoes

/-- What a host has that a dry run does not look at makes no difference to it. -/
theorem agrees_of_dryRun (hDry : i.dryRun = true) (hFiles : host'.files = host.files)
    (hInput : host'.input = host.input) (hWording : host'.wording = host.wording) {s : Stage}
    (hStage : s ∈ stages i) : s.Agrees host host' := by
  simp only [stages, preparation, hDry, if_true, List.cons_append, List.nil_append, List.mem_cons,
    List.not_mem_nil, or_false] at hStage
  rcases hStage with rfl | rfl | rfl | rfl | rfl | rfl | rfl | rfl | rfl | rfl | rfl
  · exact ⟨hFiles, hWording⟩
  · trivial
  · trivial
  · exact hFiles
  · exact hFiles
  · exact hFiles
  · exact hFiles
  · exact ⟨hFiles, hInput, hWording⟩
  · trivial
  · exact hWording
  · trivial

/-- The filter of the log that a session has. -/
def filterOf (host : Host) (outcome : Staged Unit) : Log.Filter :=
  Log.Filter.choose (host.environment.lookup Session.filterVariable)
    ((Session.logLevel? outcome.effects).getD "")

theorem start_eq_ran {args : List String}
    (hParse : CommandLine.parse args host.environment = .ok (.invocation i)) :
    Session.start host args = .ran (filterOf host (run host i)) (run host i) := by
  rw [Session.start, hParse]
  rfl

/-- An invocation that comes to the same on another host gives the same session there. -/
theorem start_congr {args : List String}
    (hParse : CommandLine.parse args host.environment = .ok (.invocation i))
    (hEnvironment : host'.environment = host.environment) (hRun : run host' i = run host i) :
    Session.start host' args = Session.start host args := by
  have hParse' : CommandLine.parse args host'.environment = .ok (.invocation i) := by
    rw [hEnvironment, hParse]
  rw [start_eq_ran hParse, start_eq_ran hParse', hRun, filterOf, filterOf, hEnvironment]

theorem run_of_success {effects : List Effect} {p : Progress}
    (h : goThrough host i (stages i) {} = ⟨effects, .ok p⟩) : run host i = ⟨effects, .ok ()⟩ := by
  rw [run_eq_goThrough, h, Staged.bind_of_ok rfl]
  simp only [Staged.effects_pure, List.append_nil]
  rfl

theorem run_of_failure {passed later : List Stage} {stage : Stage} {p : Progress}
    {before own : List Effect} {e : Failure} (hSplit : stages i = passed ++ stage :: later)
    (hPassed : goThrough host i passed {} = ⟨before, .ok p⟩)
    (hFails : stage.act host i p = ⟨own, .error e⟩) : run host i = ⟨before ++ own, .error e⟩ := by
  rw [run_eq_goThrough, hSplit, goThrough_of_failure hPassed hFails, Staged.bind_of_error rfl]

theorem effects_run : (run host i).effects = (goThrough host i (stages i) {}).effects := by
  rw [run_eq_goThrough]
  cases hResult : (goThrough host i (stages i) {}).result with
  | error e => rw [Staged.bind_of_error hResult]
  | ok p =>
    rw [Staged.bind_of_ok hResult]
    simp

theorem result_run_eq_ok_iff :
    (run host i).result = .ok () ↔ ∃ p, (goThrough host i preparation {}).result = .ok p ∧
      (i.dryRun = true ∨ CollectsWell host p) := by
  rw [← result_goThrough_stages, run_eq_goThrough, result_bind_eq_ok]
  exact exists_congr fun q => and_iff_left rfl

/-- **The stages of an invocation.**
1. Either all stages pass, in order; then the exit code is zero, and no failure is told.  Or there
   is a first stage that fails: what was done to the world was done by the stages before it and by
   itself, each in its own way; the exit code is one; its error is told, once, and no other; and the
   session is the same on every host that agrees on what these stages look at.
2. A dry run sets up no exporter, opens no data source and has nothing collected, and it is the same
   on every host that agrees on the environment, the files, the input and the wording of what is wrong
   with a document.
3. The exit code is zero just if the preparation passes, up to the parsing of the queries, and the
   run is dry or the collector returns success. -/
theorem staged_startup (host : Host) (args : List String) (i : Invocation)
    (hParse : CommandLine.parse args host.environment = .ok (.invocation i)) :
    let session := Session.start host args
    ((∃ effects p, goThrough host i (stages i) {} = ⟨effects, .ok p⟩ ∧
        session.effects = effects ∧ session.exitCode = 0 ∧ TellsNone session) ∨
      ∃ passed stage later before p own e,
        stages i = passed ++ stage :: later ∧
        goThrough host i passed {} = ⟨before, .ok p⟩ ∧ stage.act host i p = ⟨own, .error e⟩ ∧
        session.effects = before ++ own ∧
        (∀ x ∈ session.effects, ∃ s ∈ passed ++ [stage], s.Does i x) ∧
        session.exitCode = 1 ∧ TellsOnce session stage e ∧
        ∀ host' : Host, host'.environment = host.environment →
          (∀ s ∈ passed ++ [stage], s.Agrees host host') → Session.start host' args = session) ∧
    (i.dryRun = true →
      (∀ x ∈ session.effects, ¬ x.IsLate) ∧
      ∀ host' : Host, host'.environment = host.environment → host'.files = host.files →
        host'.input = host.input → host'.wording = host.wording →
          Session.start host' args = session) ∧
    (session.exitCode = 0 ↔
      ∃ p, (goThrough host i preparation {}).result = .ok p ∧
        (i.dryRun = true ∨ CollectsWell host p)) := by
  intro session
  have hSession : session = .ran (filterOf host (run host i)) (run host i) := start_eq_ran hParse
  refine ⟨?stages, fun hDry => ⟨?late, ?elsewhere⟩, ?success⟩
  case stages =>
    rcases goThrough_cases host i (stages i) {} with ⟨effects, p, hAll⟩ |
      ⟨passed, stage, later, before, p, own, e, hSplit, hPassed, hFails⟩
    · refine .inl ⟨effects, p, hAll, ?_⟩
      have hDoes : ∀ x ∈ effects, ∃ s ∈ stages i, s.Does i x := by
        intro x hMem
        have hEffect : x ∈ (goThrough host i (stages i) {}).effects := by rwa [hAll]
        exact exists_does_of_mem hEffect
      rw [hSession, run_of_success hAll]
      exact ⟨rfl, rfl, tellsNone_of_success _ hDoes⟩
    · refine .inr ⟨passed, stage, later, before, p, own, e, hSplit, hPassed, hFails, ?_⟩
      have hRun := run_of_failure hSplit hPassed hFails
      have hElsewhere (host' : Host) (hEnvironment : host'.environment = host.environment)
          (hAgrees : ∀ s ∈ passed ++ [stage], s.Agrees host host') :
          Session.start host' args = session := by
        obtain ⟨hEarlier, hHere⟩ := List.forall_mem_append.mp hAgrees
        have hPassed' : goThrough host' i passed {} = ⟨before, .ok p⟩ := by
          rw [goThrough_congr hEarlier, hPassed]
        have hFails' : stage.act host' i p = ⟨own, .error e⟩ := by
          rw [act_congr (hHere stage (List.mem_singleton.mpr rfl)), hFails]
        exact start_congr hParse hEnvironment (hRun ▸ run_of_failure hSplit hPassed' hFails')
      have hTells := tellsOnce_of_failure (filterOf host (run host i)) hSplit hPassed hFails
      rw [← hRun, ← hSession] at hTells
      have hEffects : session.effects = before ++ own := by
        rw [hSession, hRun]
        rfl
      have hExit : session.exitCode = 1 := by
        rw [hSession, hRun]
        rfl
      refine ⟨hEffects, ?_, hExit, hTells, hElsewhere⟩
      rw [hEffects]
      exact does_of_failure hPassed hFails
  case late =>
    intro x hMem
    rw [hSession] at hMem
    have hEffect : x ∈ (goThrough host i (stages i) {}).effects := effects_run ▸ hMem
    obtain ⟨s, hStage, hDoes⟩ := exists_does_of_mem hEffect
    exact not_isLate_of_dryRun hDry hStage hDoes
  case elsewhere =>
    intro host' hEnvironment hFiles hInput hWording
    refine start_congr hParse hEnvironment ?_
    rw [run_eq_goThrough, run_eq_goThrough,
      goThrough_congr fun s hStage => agrees_of_dryRun hDry hFiles hInput hWording hStage]
  case success =>
    rw [← result_run_eq_ok_iff, hSession]
    cases hResult : (run host i).result with
    | ok u => simp [Session.exitCode, hResult]
    | error e => simp [Session.exitCode, hResult]

/-- A dry run whose data source is named by a file that is not there fails, and it fails alike
whatever the databases and the network are. -/
theorem staged_startup_missing_dsn :
    let host : Host := .offline [] ⟨[[]], [], []⟩ [] 0
    let args := ["--dry-run", "--dsn", "file:///nope"]
    let i : Invocation :=
      { config := none, overrides := { dsn := some "file:///nope" }, dryRun := true }
    CommandLine.parse args host.environment = .ok (.invocation i) ∧
      (Session.start host args).exitCode = 1 ∧
      (∀ x ∈ (Session.start host args).effects, ¬ x.IsLate) ∧
      ∀ database network,
        Session.start { host with database, network } args = Session.start host args := by
  intro host args i
  have hParse : CommandLine.parse args host.environment = .ok (.invocation i) := by cbv
  have hExit : (Session.start host args).exitCode = 1 := by cbv
  obtain ⟨-, hDryRun, -⟩ := staged_startup host args i hParse
  obtain ⟨hLate, hElsewhere⟩ := hDryRun rfl
  exact ⟨hParse, hExit, hLate, fun database network => hElsewhere _ rfl rfl rfl rfl⟩

/-- A standard input that is not UTF-8, and one that the system refuses to read. -/
example :
    let host : Host := .offline [] ⟨[[]], [], []⟩ [0xFF] 0
    let args := ["--dry-run", "--dsn", "sqlite://:memory:"]
    (Session.start { host with wording.input := fun _ => "not text" } args).failure? =
        some (.input "not text") ∧
      (Session.start { host with input := .error .isDirectory } args).failure? =
        some (.input "Is a directory (os error 21)") := by
  decide +kernel

end SqlMetrics.Startup
