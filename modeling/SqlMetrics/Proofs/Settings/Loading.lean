import Mathlib
import SqlMetrics.Settings

/-!
# Loading settings

The settings that may be written as a URL are resolved one after another, each of them once.

- **Drivers**: a `LiveRegistry` has drivers that may answer differently each time; one with drivers
  that always answer alike is a registry (`load_constant`).
- **Values**: `Registry.Resolves` says what a value comes to, and `goes_to_driver` that resolving
  a value and reading a location go to the same driver.
- **Fields**: the settings in question are independent of one another (`indirect_independent`).
- **Loading**: `settings_resolved_in_turn` says what loading comes to.
-/

namespace SqlMetrics

/-! ## Drivers -/

/-- A registry whose drivers may answer differently each time: what a driver answers may depend on
the calls of all drivers before, which are told by their URLs. -/
structure LiveRegistry where
  drivers : List (String × (List Url → FetchDriver))

namespace LiveRegistry

/-- The registry as it stands after some calls. -/
def after (r : LiveRegistry) (calls : List Url) : Registry :=
  ⟨r.drivers.map fun d => (d.1, d.2 calls)⟩

/-- The registry whose drivers always answer alike. -/
def constant (r : Registry) : LiveRegistry :=
  ⟨r.drivers.map fun d => (d.1, fun _ => d.2)⟩

/-- The URL that a value is, if its scheme has a driver. -/
def url? (r : LiveRegistry) (value : String) : Option Url :=
  (r.after []).registeredUrl? value

/-- Resolves settings one after another up to the first that fails, after some calls. -/
def loadFields (r : LiveRegistry) :
    List Url → List Settings.Indirect → Settings → Settings.Loading
  | _, [], s => ⟨[], s, .ok ()⟩
  | calls, field :: rest, s =>
    let called := (r.url? (field.get s)).toList
    match (r.after calls).resolve (field.get s) with
    | .error e => ⟨called, s, .error (.fetch e)⟩
    | .ok v =>
      let later := r.loadFields (calls ++ called) rest (field.set s v)
      { later with fetched := called ++ later.fetched }

/-- Resolves the settings that may be written as a URL. -/
def load (r : LiveRegistry) (s : Settings) : Settings.Loading :=
  r.loadFields [] Settings.indirect s

end LiveRegistry

namespace Registry

/-- Whether two registries have drivers for the same schemes. -/
def SameSchemes (r r' : Registry) : Prop :=
  ∀ scheme, r.isRegistered scheme = r'.isRegistered scheme

/-- Which URL a value is depends on the schemes alone. -/
theorem SameSchemes.registeredUrl?_eq {r r' : Registry} (h : r.SameSchemes r') (value : String) :
    r.registeredUrl? value = r'.registeredUrl? value := by
  simp only [registeredUrl?, h _]

end Registry

namespace LiveRegistry

@[simp] theorem after_constant (r : Registry) (calls : List Url) :
    (constant r).after calls = r := by
  simp [constant, after, Function.comp_def]

theorem loadFields_constant (r : Registry) (calls : List Url) (fields : List Settings.Indirect)
    (s : Settings) : (constant r).loadFields calls fields s = Settings.loadFields r fields s := by
  induction fields generalizing calls s with
  | nil => rfl
  | cons field rest ih =>
    cases hResult : r.resolve (field.get s) <;>
      simp [loadFields, Settings.loadFields, url?, hResult, ih]

/-- Drivers that always answer alike are a registry. -/
theorem load_constant (r : Registry) (s : Settings) : (constant r).load s = s.load r :=
  loadFields_constant r [] Settings.indirect s

end LiveRegistry

/-! ## Values -/

namespace Registry

/-- What a value comes to. -/
inductive Resolves (r : Registry) (value : String) : Except FetchError String → Prop where
  /-- It is no URL whose scheme has a driver, and stands for itself. -/
  | literal (hUrl : r.registeredUrl? value = none) : r.Resolves value (.ok value)
  /-- It stands for what it refers to. -/
  | fetched {url : Url} {content : Bytes} (hUrl : r.registeredUrl? value = some url)
      (hFetch : r.fetch url = .ok content) :
      r.Resolves value (.ok (Text.trim (Text.decodeLossy content)))
  /-- What it refers to cannot be fetched. -/
  | failed {url : Url} {e : FetchError} (hUrl : r.registeredUrl? value = some url)
      (hFetch : r.fetch url = .error e) : r.Resolves value (.error e)

theorem resolve_eq_iff {r : Registry} {value : String} {result : Except FetchError String} :
    r.resolve value = result ↔ r.Resolves value result := by
  constructor
  · rintro rfl
    unfold resolve
    split
    case h_1 hUrl => exact .literal hUrl
    case h_2 url hUrl =>
      split
      case h_1 e hFetch => exact .failed hUrl hFetch
      case h_2 content hFetch => exact .fetched hUrl hFetch
  · rintro (hUrl | ⟨hUrl, hFetch⟩ | ⟨hUrl, hFetch⟩) <;> simp only [resolve, *]

/-- A URL whose scheme has a driver is fetched by this driver. -/
theorem exists_driver {r : Registry} {value : String} {url : Url}
    (h : r.registeredUrl? value = some url) :
    ∃ driver, r.driver? url.scheme = some driver ∧ r.fetch url = driver url := by
  have hRegistered : r.isRegistered url.scheme = true := (Option.filter_eq_some_iff.mp h).2
  obtain ⟨driver, hDriver⟩ := Option.isSome_iff_exists.mp hRegistered
  exact ⟨driver, hDriver, by rw [fetch, hDriver]⟩

/-- Resolving a value and reading it as a location go to the same driver.  A value is a URL whose
scheme has a driver or it is not.  If it is, then whatever the drivers of these schemes do, reading
it is what the one driver answers for the URL, and resolving it is the trimmed text of that.  If it
is not, neither depends on what the drivers do. -/
def GoesToDriver (r : Registry) (files : Files) (value : String) : Prop :=
  (∃ url, r.registeredUrl? value = some url ∧ ∀ r', r.SameSchemes r' →
    ∃ driver, r'.driver? url.scheme = some driver ∧
      r'.readLocation files value = driver url ∧
      r'.resolve value = (driver url).map fun content => Text.trim (Text.decodeLossy content)) ∨
  (r.registeredUrl? value = none ∧ ∀ r', r.SameSchemes r' →
    r'.resolve value = .ok value ∧
      r'.readLocation files value = readFile files (Text.encode value))

theorem goes_to_driver (r : Registry) (files : Files) (value : String) :
    r.GoesToDriver files value := by
  cases hUrl : r.registeredUrl? value with
  | none =>
    refine .inr ⟨hUrl, fun r' hSame => ?_⟩
    have hUrl' : r'.registeredUrl? value = none := hSame.registeredUrl?_eq value ▸ hUrl
    exact ⟨by rw [resolve, hUrl'], by rw [readLocation, hUrl']⟩
  | some url =>
    refine .inl ⟨url, hUrl, fun r' hSame => ?_⟩
    have hUrl' : r'.registeredUrl? value = some url := hSame.registeredUrl?_eq value ▸ hUrl
    obtain ⟨driver, hDriver, hFetch⟩ := exists_driver hUrl'
    refine ⟨driver, hDriver, by simp only [readLocation, hUrl', hFetch], ?_⟩
    simp only [resolve, hUrl', hFetch]
    cases driver url <;> rfl

end Registry

/-! ## Fields -/

namespace Settings.Indirect

/-- What is set is what is got afterwards. -/
def Lawful (field : Indirect) : Prop := ∀ s v, field.get (field.set s v) = v

/-- Setting either of two settings leaves the other one as it is. -/
structure Independent (field other : Indirect) : Prop where
  get_set : ∀ s v, other.get (field.set s v) = other.get s
  get_set' : ∀ s v, field.get (other.set s v) = field.get s

end Settings.Indirect

namespace Settings

theorem indirect_lawful : ∀ field ∈ indirect, field.Lawful := by
  simp [indirect, Indirect.Lawful]

theorem indirect_independent : indirect.Pairwise Indirect.Independent := by
  simp only [indirect, List.pairwise_cons, List.forall_mem_cons, List.not_mem_nil, false_implies,
    implies_true, List.Pairwise.nil, and_true]
  exact ⟨⟨⟨fun _ _ => rfl, fun _ _ => rfl⟩, ⟨fun _ _ => rfl, fun _ _ => rfl⟩,
      ⟨fun _ _ => rfl, fun _ _ => rfl⟩⟩,
    ⟨⟨fun _ _ => rfl, fun _ _ => rfl⟩, ⟨fun _ _ => rfl, fun _ _ => rfl⟩⟩,
    ⟨fun _ _ => rfl, fun _ _ => rfl⟩⟩

end Settings

/-! ## Loading -/

namespace LiveRegistry

variable {r : LiveRegistry} {s : Settings} {fields : List Settings.Indirect}

/-- The URLs that drivers are called with for some settings as they are. -/
def callsFor (r : LiveRegistry) (s : Settings) (fields : List Settings.Indirect) : List Url :=
  fields.filterMap fun field => r.url? (field.get s)

/-- The registry that a setting meets on its turn, after those before it. -/
def onTurn (r : LiveRegistry) (s : Settings) (before : List Settings.Indirect) : Registry :=
  r.after (r.callsFor s before)

/-- Some settings are what they came to, each on its turn. -/
def Replaced (r : LiveRegistry) (s loaded : Settings) (fields : List Settings.Indirect) : Prop :=
  ∀ before field after, fields = before ++ field :: after →
    (r.onTurn s before).Resolves (field.get s) (.ok (field.get loaded))

/-- What loading some settings comes to. -/
inductive Outcome (r : LiveRegistry) (s : Settings) (fields : List Settings.Indirect) :
    Settings.Loading → Prop where
  /-- Every setting is replaced. -/
  | completed {loaded : Settings} (hReplaced : r.Replaced s loaded fields) :
      Outcome r s fields ⟨r.callsFor s fields, loaded, .ok ()⟩
  /-- A setting fails on its turn.  Those before it are replaced; it and those behind it are not,
  and no driver is called for the latter. -/
  | stopped {loaded : Settings} {before after : List Settings.Indirect}
      {field : Settings.Indirect} {e : FetchError} (hSplit : fields = before ++ field :: after)
      (hReplaced : r.Replaced s loaded before)
      (hFails : (r.onTurn s before).Resolves (field.get s) (.error e))
      (hKept : ∀ later ∈ field :: after, later.get loaded = later.get s) :
      Outcome r s fields ⟨r.callsFor s (before ++ [field]), loaded, .error (.fetch e)⟩

theorem callsFor_append_singleton (before : List Settings.Indirect) (field : Settings.Indirect) :
    r.callsFor s (before ++ [field]) = r.callsFor s before ++ (r.url? (field.get s)).toList := by
  rw [callsFor, callsFor, List.filterMap_append]
  cases hUrl : r.url? (field.get s) <;> simp [hUrl]

theorem Replaced.nil (loaded : Settings) : r.Replaced s loaded [] := fun before _ _ hSplit => by
  cases before <;> simp at hSplit

/-- Setting one more setting, which is independent of those before it. -/
theorem Replaced.snoc {loaded : Settings} {done : List Settings.Indirect}
    {field : Settings.Indirect} {v : String} (hReplaced : r.Replaced s loaded done)
    (hLawful : field.Lawful) (hIndependent : ∀ earlier ∈ done, earlier.Independent field)
    (hResolves : (r.onTurn s done).Resolves (field.get s) (.ok v)) :
    r.Replaced s (field.set loaded v) (done ++ [field]) := by
  intro before other after hSplit
  rcases List.append_eq_append_iff.mp hSplit with ⟨more, rfl, hMore⟩ | ⟨more, rfl, hMore⟩
  · -- Only the new setting comes after all those before.
    cases more with
    | nil =>
      obtain ⟨rfl, -⟩ : field = other ∧ [] = after := by simpa using hMore
      rw [hLawful, List.append_nil]
      exact hResolves
    | cons _ _ => simp at hMore
  · cases more with
    | nil =>
      obtain ⟨rfl, -⟩ : other = field ∧ after = [] := by simpa using hMore
      rw [hLawful]
      rw [List.append_nil] at hResolves
      exact hResolves
    | cons earlier more =>
      obtain ⟨rfl, -⟩ : other = earlier ∧ after = more ++ [field] := by simpa using hMore
      rw [(hIndependent other (by simp)).get_set']
      exact hReplaced before other more rfl

/-- Loading settings when those before them have been replaced. -/
theorem outcome_loadFields {current : Settings} {done rest : List Settings.Indirect}
    (hLawful : ∀ field ∈ rest, field.Lawful)
    (hIndependent : (done ++ rest).Pairwise Settings.Indirect.Independent)
    (hReplaced : r.Replaced s current done)
    (hKept : ∀ field ∈ rest, field.get current = field.get s) :
    let later := r.loadFields (r.callsFor s done) rest current
    r.Outcome s (done ++ rest) { later with fetched := r.callsFor s done ++ later.fetched } := by
  induction rest generalizing current done with
  | nil =>
    rw [List.append_nil] at hIndependent ⊢
    simpa [loadFields] using Outcome.completed hReplaced
  | cons field rest ih =>
    have hField : field.get current = field.get s := hKept field List.mem_cons_self
    cases hResult : (r.onTurn s done).resolve (field.get s) with
    | error e =>
      have hStopped := Outcome.stopped rfl hReplaced (Registry.resolve_eq_iff.mp hResult) hKept
      rw [onTurn] at hResult
      simpa only [loadFields, hField, hResult, callsFor_append_singleton] using hStopped
    | ok v =>
      have hBefore : ∀ earlier ∈ done, earlier.Independent field := fun earlier hEarlier =>
        (List.pairwise_append.mp hIndependent).2.2 earlier hEarlier field List.mem_cons_self
      have hBehind : ∀ later ∈ rest, field.Independent later :=
        (List.pairwise_cons.mp (List.pairwise_append.mp hIndependent).2.1).1
      have hNext := hReplaced.snoc (hLawful field List.mem_cons_self) hBefore
        (Registry.resolve_eq_iff.mp hResult)
      have hLater := @ih (field.set current v) (done ++ [field])
        (fun later hLater => hLawful later (List.mem_cons_of_mem _ hLater))
        (by simpa using hIndependent) hNext
        (fun later hLater => by
          rw [(hBehind later hLater).get_set, hKept later (List.mem_cons_of_mem _ hLater)])
      rw [onTurn] at hResult
      simpa only [loadFields, hField, hResult, callsFor_append_singleton, List.append_assoc,
        List.singleton_append] using hLater

theorem outcome_load (r : LiveRegistry) (s : Settings) :
    r.Outcome s Settings.indirect (r.load s) :=
  @outcome_loadFields r s s [] Settings.indirect Settings.indirect_lawful
    Settings.indirect_independent (.nil s) fun _ _ => rfl

/-- Whatever resolving some settings does not set stays as it is. -/
theorem loadFields_keeps {α : Type} (g : Settings → α) {calls : List Url}
    (hKeeps : ∀ field ∈ fields, ∀ s v, g (field.set s v) = g s) :
    g (r.loadFields calls fields s).settings = g s := by
  induction fields generalizing calls s with
  | nil => rfl
  | cons field rest ih =>
    unfold loadFields
    cases (r.after calls).resolve (field.get s) with
    | error e => rfl
    | ok v =>
      exact (ih fun later hLater => hKeeps later (List.mem_cons_of_mem _ hLater)).trans
        (hKeeps field List.mem_cons_self s v)

theorem Outcome.result_eq_ok_iff {loading : Settings.Loading} (h : r.Outcome s fields loading) :
    loading.result = .ok () ↔ ∀ before field after, fields = before ++ field :: after →
      ∃ text, (r.onTurn s before).Resolves (field.get s) (.ok text) := by
  constructor
  · intro hPasses before field after hSplit
    cases h with
    | completed hReplaced => exact ⟨_, hReplaced before field after hSplit⟩
    | stopped => cases hPasses
  · intro hResolves
    cases h with
    | completed => rfl
    | stopped hSplit _ hFails =>
      obtain ⟨text, hText⟩ := hResolves _ _ _ hSplit
      rw [← Registry.resolve_eq_iff] at hText hFails
      cases hText.symm.trans hFails

/-- **Settings are resolved in turn.**  Let `r` be a registry whose drivers may do anything, and `s`
settings.

1. The settings that are resolved are the data source, the default service, the key and the base, in
   this order.
2. Loading passes just if each of them, on its turn, is no URL whose scheme has a driver or is
   fetched.
3. If it passes, each of them is its text as it was, or what was fetched as trimmed text, and
   drivers were called for the texts as they were and for nothing else: what was fetched is not
   fetched again, even if it is such a URL.  If it fails, then with the error of the first setting
   that fails; only those before it are replaced, and no driver is called for those behind it.
4. All other settings stay as they are.
5. This is loading from a registry if the drivers always answer alike.
6. Resolving any value goes to a driver just if reading it as a location does, to the same one with
   the same URL, and gives the trimmed text of what the latter gives. -/
theorem settings_resolved_in_turn (r : LiveRegistry) (s : Settings) :
    Settings.indirect.map Settings.Indirect.get =
      [Settings.dsn, Settings.defaultService, Settings.mackerelApiKey, Settings.mackerelApiBase] ∧
    ((r.load s).result = .ok () ↔
      ∀ before field after, Settings.indirect = before ++ field :: after →
        ∃ text, (r.onTurn s before).Resolves (field.get s) (.ok text)) ∧
    r.Outcome s Settings.indirect (r.load s) ∧
    (r.load s).settings = { s with
      dsn := (r.load s).settings.dsn
      defaultService := (r.load s).settings.defaultService
      mackerelApiKey := (r.load s).settings.mackerelApiKey
      mackerelApiBase := (r.load s).settings.mackerelApiBase } ∧
    (∀ registry, (constant registry).load s = s.load registry) ∧
    ∀ (registry : Registry) (files : Files) (value : String), registry.GoesToDriver files value := by
  refine ⟨rfl, (outcome_load r s).result_eq_ok_iff, outcome_load r s, ?_,
    fun registry => load_constant registry s, Registry.goes_to_driver⟩
  let others (s : Settings) := (s.maxConcurrency, s.queryFile, s.exporter, s.logFormat, s.logLevel)
  have hKeeps : ∀ field ∈ Settings.indirect, ∀ s v, others (field.set s v) = others s := by
    simp [Settings.indirect, others]
  have hOthers : others (r.load s).settings = others s := loadFields_keeps others hKeeps
  simp only [others, Prod.mk.injEq] at hOthers
  obtain ⟨hLimit, hFile, hExporter, hFormat, hLevel⟩ := hOthers
  rw [← hLimit, ← hFile, ← hExporter, ← hFormat, ← hLevel]

example :
    let driver : FetchDriver := fun url =>
      if url.text = "kv:key" then .error (.invalidUrl url.text) else .ok (Text.encode " kv:b\n")
    let s : Settings := { dsn := "kv:a", defaultService := " kv ", mackerelApiKey := "kv:key" }
    let loading := s.load ⟨[("kv", driver)]⟩
    loading.settings = { s with dsn := "kv:b" } ∧
      loading.result = .error (.fetch (.invalidUrl "kv:key")) := by
  refine ⟨?_, ?_⟩ <;> cbv

end LiveRegistry

end SqlMetrics
