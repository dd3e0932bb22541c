import Mathlib
import SqlMetrics.Session

/-!
# The stages of an invocation

An invocation is a list of stages, each of which works on what those before it have come to.

- **Laws**: stages are put one after another as in any monad (`LawfulMonad Staged`).
- **List of stages**: `run_eq_goThrough` states that an invocation goes through `stages`, and
  `goThrough_cases` that it passes all of them or ends with the first that fails.
- **Effects**: `Stage.Does` says what a stage may do to the world (`does_of_mem_act`).
- **Surroundings**: `Stage.Agrees` says what of the host a stage looks at (`act_congr`).
-/

namespace SqlMetrics.Startup

open CommandLine (Invocation)

/-! ## Stages one after another -/

namespace Staged

variable {α β : Type}

theorem bind_of_ok {x : Staged α} {a : α} (h : x.result = .ok a) (f : α → Staged β) :
    x >>= f = ⟨x.effects ++ (f a).effects, (f a).result⟩ := by
  change x.andThen f = _
  rw [andThen, h]

theorem bind_of_error {x : Staged α} {e : Failure} (h : x.result = .error e) (f : α → Staged β) :
    x >>= f = ⟨x.effects, .error e⟩ := by
  change x.andThen f = _
  rw [andThen, h]

instance : LawfulMonad Staged := by
  refine LawfulMonad.mk' (m := Staged) ?_ (fun _ _ => rfl) ?_
  · intro α x
    obtain ⟨effects, result⟩ := x
    cases result with
    | ok a =>
      change (⟨effects ++ [], .ok a⟩ : Staged α) = _
      rw [List.append_nil]
    | error e => rfl
  · intro α β γ x f g
    obtain ⟨effects, result⟩ := x
    cases result with
    | error e => rfl
    | ok a =>
      -- What comes second decides whether there is a third.
      rw [bind_of_ok rfl f, bind_of_ok rfl fun a => f a >>= g]
      cases hSecond : (f a).result with
      | ok b =>
        rw [bind_of_ok hSecond g]
        change (⟨effects ++ (f a).effects ++ (g b).effects, (g b).result⟩ : Staged γ) = _
        rw [List.append_assoc]
      | error e =>
        rw [bind_of_error hSecond g]
        rfl

/-- What two stages do, one of them did. -/
theorem mem_bind {x : Staged α} {f : α → Staged β} {effect : Effect}
    (h : effect ∈ (x >>= f).effects) :
    effect ∈ x.effects ∨ ∃ a, x.result = .ok a ∧ effect ∈ (f a).effects := by
  cases hResult : x.result with
  | error e =>
    rw [bind_of_error hResult] at h
    exact .inl h
  | ok a =>
    rw [bind_of_ok hResult] at h
    exact (List.mem_append.mp h).imp_right fun hSecond => ⟨a, rfl, hSecond⟩

@[simp] theorem effects_pure (a : α) : (pure a : Staged α).effects = [] := rfl

@[simp] theorem effects_act (e : Effect) : (act e).effects = [e] := rfl

@[simp] theorem effects_ofExcept {ε : Type} (failure : ε → Failure) (r : Except ε α) :
    (ofExcept failure r).effects = [] := rfl

end Staged

@[simp] theorem effects_parsedQueries (host : Host) (text : String) :
    (parsedQueries host text).effects = [] := rfl

/-! ## The list of stages -/

/-- What the stages of an invocation have come to so far. -/
structure Progress where
  settings : Settings := {}
  document : Document := .bytes []
  text : String := ""
  queries : List Query := []
  exporter : Option Exporter := none
  source : Option DataSource := none

/-- The stages that an invocation can go through. -/
inductive Stage where
  /-- The settings are read from the file that is named, if one is. -/
  | settingsFile
  /-- The settings are overridden. -/
  | overriding
  /-- The settings are checked, and the log is opened. -/
  | checking
  /-- A setting that may be a URL is resolved. -/
  | resolving (field : Settings.Indirect)
  /-- The document with the queries is read. -/
  | reading
  | decoding
  | parsing
  /-- A dry run tells what it has found. -/
  | telling
  /-- The exporter is set up. -/
  | building
  /-- The data source is opened. -/
  | opening
  /-- The collector runs. -/
  | collecting

/-- Resolves one setting. -/
def resolvedField (registry : Registry) (field : Settings.Indirect) (s : Settings) :
    Staged Settings :=
  ⟨(registry.registeredUrl? (field.get s)).toList.map .fetched,
    match registry.resolve (field.get s) with
    | .error e => .error (.loading (.fetch e))
    | .ok value => .ok (field.set s value)⟩

/-- Goes through one stage. -/
def Stage.act (host : Host) (i : Invocation) (p : Progress) : Stage → Staged Progress
  | .settingsFile => do
    let settings ← baseSettings host i.config
    return { p with settings }
  | .overriding => return { p with settings := p.settings.merge i.overrides }
  | .checking => do
    Staged.ofExcept .settings p.settings.validate
    Staged.act (.logOpened p.settings.logFormat p.settings.logLevel)
    return p
  | .resolving field => do
    let settings ← resolvedField (Registry.builtin host.files) field p.settings
    return { p with settings }
  | .reading => do
    let document ← queryDocument host (Registry.builtin host.files) p.settings.queryFile
    return { p with document }
  | .decoding => do
    let text ← Staged.ofExcept .decoding p.document.decode
    return { p with text }
  | .parsing => do
    let queries ← parsedQueries host p.text
    return { p with queries }
  | .telling => do
    Staged.act (.printed (Plan.summary ⟨p.settings, p.queries⟩))
    return p
  | .building => do
    let exporter ← builtExporter p.settings
    return { p with exporter := some exporter }
  | .opening => do
    let source ← openedSource host p.settings
    return { p with source := some source }
  | .collecting =>
    match p.exporter, p.source with
    | some exporter, some source => do
      Staged.act (.logged (Log.started CommandLine.programVersion p.queries.length))
      collect host ⟨p.settings, p.queries⟩ exporter source
      return p
    -- The stages before this one have set both.
    | _, _ => return p

/-- Goes through stages, one after another. -/
def goThrough (host : Host) (i : Invocation) (stages : List Stage) (p : Progress) :
    Staged Progress :=
  stages.foldlM (fun p stage => stage.act host i p) p

/-- The name of the data source. -/
def dsnField : Settings.Indirect := ⟨Settings.dsn, fun s v => { s with dsn := v }⟩

/-- The default service. -/
def serviceField : Settings.Indirect :=
  ⟨Settings.defaultService, fun s v => { s with defaultService := v }⟩

/-- The key of the exporter. -/
def apiKeyField : Settings.Indirect :=
  ⟨Settings.mackerelApiKey, fun s v => { s with mackerelApiKey := v }⟩

/-- The base URL of the exporter. -/
def apiBaseField : Settings.Indirect :=
  ⟨Settings.mackerelApiBase, fun s v => { s with mackerelApiBase := v }⟩

/-- The stages of every invocation, in order. -/
def preparation : List Stage :=
  [.settingsFile, .overriding, .checking, .resolving dsnField, .resolving serviceField,
    .resolving apiKeyField, .resolving apiBaseField, .reading, .decoding, .parsing]

/-- The stages of an invocation, in order.  A dry run ends after the preparation. -/
def stages (i : Invocation) : List Stage :=
  preparation ++ if i.dryRun then [.telling] else [.building, .opening, .collecting]

/-! ## Invocations go through their stages -/

/-- The stage that resolves settings at one go. -/
def ofLoading (loading : Settings.Loading) : Staged Settings :=
  ⟨loading.fetched.map .fetched,
    match loading.result with
    | .error e => .error (.loading e)
    | .ok () => .ok loading.settings⟩

/-- Settings are resolved one after another. -/
theorem ofLoading_loadFields (registry : Registry) (fields : List Settings.Indirect)
    (s : Settings) :
    ofLoading (Settings.loadFields registry fields s) =
      fields.foldlM (fun s field => resolvedField registry field s) s := by
  induction fields generalizing s with
  | nil => rfl
  | cons field rest ih =>
    rw [List.foldlM_cons]
    cases hValue : registry.resolve (field.get s) with
    | error e =>
      have hFails : (resolvedField registry field s).result = .error (.loading (.fetch e)) := by
        simp [resolvedField, hValue]
      rw [Staged.bind_of_error hFails]
      simp [Settings.loadFields, hValue, resolvedField, ofLoading]
    | ok value =>
      have hPasses : (resolvedField registry field s).result = .ok (field.set s value) := by
        simp [resolvedField, hValue]
      rw [Staged.bind_of_ok hPasses, ← ih (field.set s value)]
      simp [Settings.loadFields, hValue, resolvedField, ofLoading]

theorem resolvedSettings_eq (registry : Registry) (s : Settings) :
    resolvedSettings registry s = (do
      let s ← resolvedField registry dsnField s
      let s ← resolvedField registry serviceField s
      let s ← resolvedField registry apiKeyField s
      resolvedField registry apiBaseField s) := by
  change ofLoading (Settings.loadFields registry Settings.indirect s) = _
  rw [ofLoading_loadFields]
  simp only [Settings.indirect, List.foldlM_cons, List.foldlM_nil, bind_pure]
  rfl

/-- **An invocation goes through its stages.** -/
theorem run_eq_goThrough (host : Host) (i : Invocation) :
    run host i = (do
      let _ ← goThrough host i (stages i) {}
      return ()) := by
  unfold run prepare goThrough stages preparation
  cases hDry : i.dryRun with
  | true =>
    simp only [if_true, List.cons_append, List.nil_append, List.foldlM_cons, List.foldlM_nil,
      Stage.act, checkedSettings, resolvedSettings_eq, queriesAt, bind_assoc, pure_bind,
      bind_pure_unit]
  | false =>
    simp only [Bool.false_eq_true, if_false, List.cons_append, List.nil_append, List.foldlM_cons,
      List.foldlM_nil, Stage.act, checkedSettings, resolvedSettings_eq, queriesAt, start,
      bind_assoc, pure_bind, bind_pure_unit]

/-! ## The first stage that fails -/

variable {host host' : Host} {i : Invocation}

theorem goThrough_cons (stage : Stage) (rest : List Stage) (p : Progress) :
    goThrough host i (stage :: rest) p = stage.act host i p >>= goThrough host i rest :=
  List.foldlM_cons

theorem goThrough_append (before after : List Stage) (p : Progress) :
    goThrough host i (before ++ after) p = goThrough host i before p >>= goThrough host i after :=
  List.foldlM_append

/-- Stages that pass one after another. -/
theorem goThrough_cons_of_ok {stage : Stage} {rest : List Stage} {p q : Progress}
    (h : (stage.act host i p).result = .ok q) :
    goThrough host i (stage :: rest) p =
      ⟨(stage.act host i p).effects ++ (goThrough host i rest q).effects,
        (goThrough host i rest q).result⟩ := by
  rw [goThrough_cons, Staged.bind_of_ok h]

/-- What comes after a stage that fails has no part in it. -/
theorem goThrough_of_failure {passed later : List Stage} {stage : Stage} {p q : Progress}
    {before own : List Effect} {e : Failure} (hPassed : goThrough host i passed p = ⟨before, .ok q⟩)
    (hFails : stage.act host i q = ⟨own, .error e⟩) :
    goThrough host i (passed ++ stage :: later) p = ⟨before ++ own, .error e⟩ := by
  rw [goThrough_append, hPassed, Staged.bind_of_ok rfl, goThrough_cons, hFails,
    Staged.bind_of_error rfl]

/-- **All stages pass, or there is a first one that fails.** -/
theorem goThrough_cases (host : Host) (i : Invocation) (stages : List Stage) (p : Progress) :
    (∃ effects q, goThrough host i stages p = ⟨effects, .ok q⟩) ∨
      ∃ passed stage later before q own e, stages = passed ++ stage :: later ∧
        goThrough host i passed p = ⟨before, .ok q⟩ ∧ stage.act host i q = ⟨own, .error e⟩ := by
  induction stages generalizing p with
  | nil => exact .inl ⟨[], p, rfl⟩
  | cons first rest ih =>
    cases hFirst : (first.act host i p).result with
    | error e =>
      refine .inr ⟨[], first, rest, [], p, (first.act host i p).effects, e, rfl, rfl, ?_⟩
      rw [← hFirst]
    | ok q =>
      rw [goThrough_cons_of_ok hFirst]
      rcases ih q with ⟨effects, r, hRest⟩ |
        ⟨passed, stage, later, before, r, own, e, rfl, hPassed, hFails⟩
      · exact .inl ⟨_, r, by rw [hRest]⟩
      · have hMore : goThrough host i (first :: passed) p =
            ⟨(first.act host i p).effects ++ before, .ok r⟩ := by
          rw [goThrough_cons_of_ok hFirst, hPassed]
        exact .inr ⟨first :: passed, stage, later, _, r, own, e, rfl, hMore, hFails⟩

/-! ## Kinds of effects -/

/-- Whether an entry of the log tells that the program has failed. -/
def tellsFailure (entry : Log.Entry) : Bool :=
  entry.level == .error && entry.target == Log.programTarget

/-- What a stage may do to the world. -/
def Stage.Does (i : Invocation) : Stage → Effect → Prop
  | .settingsFile, .settingsRead path => i.config = some path
  | .checking, .logOpened _ _ => True
  | .resolving _, .fetched _ => True
  | .reading, .inputRead => True
  | .reading, .queriesRead _ => True
  | .telling, .printed _ => True
  | .building, .exporterBuilt _ => True
  | .opening, .sourceOpened _ => True
  | .collecting, .collected _ => True
  | .collecting, .printed _ => True
  | .collecting, .logged entry => tellsFailure entry = false
  | _, _ => False

/-- Nothing that a run of the collector notes tells that the program has failed. -/
theorem tellsFailure_of_mem_collectionLog {t : Collector.Timeline} {entry : Log.Entry}
    (h : entry ∈ collectionLog host t) : tellsFailure entry = false := by
  have hEntries : ∀ entry ∈ t.report.events.map Log.ofEvent, tellsFailure entry = false := by
    intro entry hMem
    obtain ⟨event, -, rfl⟩ := List.mem_map.mp hMem
    cases event with
    | skipped skip => cases skip <;> rfl
    | exported | notStarted | queryFailed => rfl
  unfold collectionLog at h
  dsimp only at h
  split at h
  · rcases List.mem_append.mp h with hBefore | hRest
    · exact hEntries entry (List.mem_of_mem_take hBefore)
    · rcases List.mem_cons.mp hRest with rfl | hAfter
      · rfl
      · exact hEntries entry (List.mem_of_mem_drop hAfter)
  · exact hEntries entry h

theorem does_of_mem_collect {plan : Plan} {exporter : Exporter} {source : DataSource} {x : Effect}
    (h : x ∈ (collect host plan exporter source).effects) : Stage.collecting.Does i x := by
  rcases List.mem_append.mp h with hExternal | hLogged
  · obtain ⟨e, -, hMem⟩ := List.mem_flatMap.mp hExternal
    unfold externalEffects at hMem
    split at hMem
    · simp only [List.mem_cons, List.not_mem_nil, or_false] at hMem
      rcases hMem with rfl | rfl <;> exact trivial
    · obtain rfl := List.mem_singleton.mp hMem
      exact trivial
  · obtain ⟨entry, hMem, rfl⟩ := List.mem_map.mp hLogged
    exact tellsFailure_of_mem_collectionLog hMem

/-- **A stage does only what is its own to do.** -/
theorem does_of_mem_act {stage : Stage} {p : Progress} {x : Effect}
    (h : x ∈ (stage.act host i p).effects) : stage.Does i x := by
  cases stage with
  | settingsFile =>
    rcases Staged.mem_bind h with hRead | ⟨settings, -, hNone⟩
    · cases hPath : i.config with
      | none => simp [baseSettings, hPath] at hRead
      | some path =>
        rw [hPath] at hRead
        rcases Staged.mem_bind hRead with hMem | ⟨-, -, hNone⟩
        · obtain rfl : x = .settingsRead path := by simpa using hMem
          exact hPath
        · simp at hNone
    · simp at hNone
  | overriding => simp [Stage.act] at h
  | checking =>
    rcases Staged.mem_bind h with hNone | ⟨-, -, hMem⟩
    · simp at hNone
    · rcases Staged.mem_bind hMem with hOpened | ⟨-, -, hNone⟩
      · obtain rfl : x = .logOpened p.settings.logFormat p.settings.logLevel := by
          simpa using hOpened
        exact trivial
      · simp at hNone
  | resolving field =>
    rcases Staged.mem_bind h with hFetched | ⟨settings, -, hNone⟩
    · obtain ⟨url, -, rfl⟩ := List.mem_map.mp hFetched
      exact trivial
    · simp at hNone
  | reading =>
    rcases Staged.mem_bind h with hRead | ⟨document, -, hNone⟩
    · unfold queryDocument at hRead
      split at hRead
      all_goals
        rcases Staged.mem_bind hRead with hMem | ⟨-, -, hContent⟩
        · obtain rfl := List.mem_singleton.mp hMem
          exact trivial
        · rcases Staged.mem_bind hContent with hNone | ⟨_, -, hNone⟩ <;> simp at hNone
    · simp at hNone
  | decoding | parsing =>
    -- Neither does anything: what has been read is at hand.
    rcases Staged.mem_bind h with hNone | ⟨_, -, hNone⟩ <;> simp at hNone
  | telling =>
    rcases Staged.mem_bind h with hMem | ⟨-, -, hNone⟩
    · obtain rfl := List.mem_singleton.mp hMem
      exact trivial
    · simp at hNone
  | building =>
    rcases Staged.mem_bind h with hBuilt | ⟨exporter, -, hNone⟩
    · rcases Staged.mem_bind hBuilt with hMem | ⟨-, -, hNone⟩
      · obtain rfl := List.mem_singleton.mp hMem
        exact trivial
      · simp at hNone
    · simp at hNone
  | opening =>
    rcases Staged.mem_bind h with hOpened | ⟨source, -, hNone⟩
    · rcases Staged.mem_bind hOpened with hNone | ⟨source, -, hMem⟩
      · simp at hNone
      · rcases Staged.mem_bind hMem with hMem | ⟨-, -, hLater⟩
        · obtain rfl := List.mem_singleton.mp hMem
          exact trivial
        · rcases Staged.mem_bind hLater with hNone | ⟨_, -, hNone⟩ <;> simp at hNone
    · simp at hNone
  | collecting =>
    simp only [Stage.act] at h
    split at h
    · rcases Staged.mem_bind h with hMem | ⟨-, -, hLater⟩
      · obtain rfl := List.mem_singleton.mp hMem
        rfl
      · rcases Staged.mem_bind hLater with hMem | ⟨_, -, hNone⟩
        · exact does_of_mem_collect hMem
        · simp at hNone
    · simp at h

/-- What stages do, one of them may do. -/
theorem exists_does_of_mem {stages : List Stage} {p : Progress} {x : Effect}
    (h : x ∈ (goThrough host i stages p).effects) : ∃ stage ∈ stages, stage.Does i x := by
  induction stages generalizing p with
  | nil => simp [goThrough] at h
  | cons stage rest ih =>
    rw [goThrough_cons] at h
    rcases Staged.mem_bind h with hFirst | ⟨q, -, hRest⟩
    · exact ⟨stage, List.mem_cons_self, does_of_mem_act hFirst⟩
    · obtain ⟨later, hMem, hDoes⟩ := ih hRest
      exact ⟨later, List.mem_cons_of_mem _ hMem, hDoes⟩

/-! ## What stages look at -/

/-- Whether two hosts agree on what a stage looks at. -/
def Stage.Agrees (host host' : Host) : Stage → Prop
  | .settingsFile => host'.files = host.files ∧ host'.wording = host.wording
  | .resolving _ => host'.files = host.files
  | .reading => host'.files = host.files ∧ host'.input = host.input ∧ host'.wording = host.wording
  | .parsing => host'.wording = host.wording
  | .opening => host'.files = host.files ∧ host'.connect = host.connect
  | .collecting => host'.shell = host.shell ∧ host'.database = host.database ∧
      host'.network = host.network ∧ host'.clock = host.clock
  | .overriding | .checking | .decoding | .telling | .building => True

/-- **A stage comes to the same on hosts that agree on what it looks at.** -/
theorem act_congr {stage : Stage} (h : stage.Agrees host host') (p : Progress) :
    stage.act host' i p = stage.act host i p := by
  obtain ⟨environment, files, input, wording, shell, connect, database, network, clock⟩ := host
  obtain ⟨environment', files', input', wording', shell', connect', database', network', clock'⟩ :=
    host'
  cases stage with
  | settingsFile =>
    obtain ⟨rfl, rfl⟩ : files' = files ∧ wording' = wording := h
    rfl
  | resolving =>
    obtain rfl : files' = files := h
    rfl
  | reading =>
    obtain ⟨rfl, rfl, rfl⟩ : files' = files ∧ input' = input ∧ wording' = wording := h
    rfl
  | parsing =>
    obtain rfl : wording' = wording := h
    rfl
  | opening =>
    obtain ⟨rfl, rfl⟩ : files' = files ∧ connect' = connect := h
    rfl
  | collecting =>
    obtain ⟨rfl, rfl, rfl, rfl⟩ :
      shell' = shell ∧ database' = database ∧ network' = network ∧ clock' = clock := h
    rfl
  | overriding | checking | decoding | telling | building => rfl

theorem goThrough_congr {stages : List Stage} (h : ∀ stage ∈ stages, stage.Agrees host host')
    (p : Progress) : goThrough host' i stages p = goThrough host i stages p := by
  induction stages generalizing p with
  | nil => rfl
  | cons stage rest ih =>
    obtain ⟨hFirst, hRest⟩ := List.forall_mem_cons.mp h
    rw [goThrough_cons, goThrough_cons, act_congr hFirst, funext fun q => ih hRest q]

end SqlMetrics.Startup
