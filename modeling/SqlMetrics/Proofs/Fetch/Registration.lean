import SqlMetrics.Fetch

/-!
# Registering drivers

Drivers are registered by calls, one after another.  The first call for a scheme passes, and its
driver serves the scheme from then on; a later one is refused and changes nothing.

- **Tables**: a `DriverTable m` is a registry whose drivers do something in a monad `m` when they
  are called, so that what fetching does tells which of them it calls.
- **Registries**: if the drivers do nothing but answer, the table is a registry (`after_ofRegistry`,
  `fetch_ofRegistry`).
- **Calls**: `call_cases` says all that a call can come to, and `driver?_call` which drivers there
  are after it.
- **Sequences**: `driver?_after` says which driver a scheme has after any calls, and
  `first_registration_counts` what this means for each call, the table and fetching.
-/

namespace SqlMetrics

/-! ## Tables -/

/-- A driver that does something when it is called. -/
abbrev ActiveDriver (m : Type → Type) := Url → m (Except FetchError Bytes)

/-- A call that registers a driver: the scheme and the driver. -/
abbrev Registration (m : Type → Type) := String × ActiveDriver m

/-- The drivers by scheme, each of which does something in the monad when it is called. -/
structure DriverTable (m : Type → Type) where
  drivers : List (Registration m)

/-- The registry after calls that register drivers, one after another; it stays as it is where one
of them is refused. -/
def Registry.registerAll (r : Registry) (calls : List (String × FetchDriver)) : Registry :=
  calls.foldl (fun r c => (r.register c.1 c.2).toOption.getD r) r

namespace DriverTable

variable {m : Type → Type}

/-- A table without drivers. -/
def empty : DriverTable m := ⟨[]⟩

/-- The driver of a scheme. -/
def driver? (t : DriverTable m) (scheme : String) : Option (ActiveDriver m) :=
  (t.drivers.find? fun d => d.1 == scheme).map Prod.snd

/-- Whether a scheme has a driver. -/
def isRegistered (t : DriverTable m) (scheme : String) : Bool :=
  (t.driver? scheme).isSome

/-- Registers a driver in the table at hand, if its scheme has none.  Nothing is done in the monad
of the drivers, so none of them is called. -/
def register (scheme : String) (driver : ActiveDriver m) :
    ExceptT FetchError (StateM (DriverTable m)) Unit := do
  let table ← get
  if table.isRegistered scheme then throw (.duplicate scheme)
  set (DriverTable.mk (table.drivers ++ [(scheme, driver)]))

/-- What a call comes to, and the table that it leaves. -/
def call (t : DriverTable m) (c : Registration m) : Except FetchError Unit × DriverTable m :=
  (register c.1 c.2).run.run t

/-- The table after calls, one after another, whatever each of them comes to. -/
def after (t : DriverTable m) (calls : List (Registration m)) : DriverTable m :=
  calls.foldl (fun t c => (t.call c).2) t

/-- Gets what a URL refers to. -/
def fetch [Monad m] (t : DriverTable m) (url : Url) : m (Except FetchError Bytes) :=
  match t.driver? url.scheme with
  | some driver => driver url
  | none => pure (.error (.notRegistered url.scheme))

/-! ## Registries -/

section Registries

variable [Monad m]

/-- The driver that does nothing but answer. -/
def answering (driver : FetchDriver) : ActiveDriver m := fun url => pure (driver url)

/-- Drivers by scheme that do nothing but answer. -/
def allAnswering (drivers : List (String × FetchDriver)) : List (Registration m) :=
  drivers.map fun d => (d.1, answering d.2)

/-- The table of a registry, whose drivers do nothing but answer. -/
def ofRegistry (r : Registry) : DriverTable m := ⟨allAnswering r.drivers⟩

variable (r : Registry)

theorem driver?_ofRegistry (scheme : String) :
    (ofRegistry r : DriverTable m).driver? scheme = (r.driver? scheme).map answering := by
  simp [ofRegistry, allAnswering, driver?, Registry.driver?, List.find?_map, Function.comp_def]

theorem isRegistered_ofRegistry (scheme : String) :
    (ofRegistry r : DriverTable m).isRegistered scheme = r.isRegistered scheme := by
  rw [isRegistered, driver?_ofRegistry, Option.isSome_map, Registry.isRegistered]

theorem fetch_ofRegistry (url : Url) :
    (ofRegistry r : DriverTable m).fetch url = pure (r.fetch url) := by
  rw [fetch, driver?_ofRegistry, Registry.fetch]
  cases r.driver? url.scheme <;> rfl

end Registries

/-! ## Calls -/

theorem call_eq (t : DriverTable m) (c : Registration m) :
    t.call c =
      if t.isRegistered c.1 then (.error (.duplicate c.1), t)
      else (.ok (), ⟨t.drivers ++ [c]⟩) := by
  -- Reading the table from the state leaves the choice with the table itself.
  change (if t.isRegistered c.1 = true then throw (FetchError.duplicate c.1)
    else set (DriverTable.mk (t.drivers ++ [c])) :
      ExceptT FetchError (StateM (DriverTable m)) Unit).run.run t = _
  cases t.isRegistered c.1 <;> rfl

/-- All that a call can come to: it is refused and leaves the table as it was, or it passes and adds
its driver. -/
theorem call_cases (t : DriverTable m) (c : Registration m) :
    (t.isRegistered c.1 = true ∧ t.call c = (.error (.duplicate c.1), t)) ∨
      (t.isRegistered c.1 = false ∧ t.call c = (.ok (), ⟨t.drivers ++ [c]⟩)) := by
  cases hRegistered : t.isRegistered c.1 with
  | true => exact .inl ⟨rfl, by rw [call_eq, if_pos hRegistered]⟩
  | false => exact .inr ⟨rfl, by rw [call_eq, if_neg (by simp [hRegistered])]⟩

/-- A call on the table of a registry comes to what registering the driver there comes to. -/
theorem call_ofRegistry [Monad m] (r : Registry) (scheme : String) (driver : FetchDriver) :
    (ofRegistry r : DriverTable m).call (scheme, answering driver) =
      ((r.register scheme driver).map fun _ => (),
        ofRegistry ((r.register scheme driver).toOption.getD r)) := by
  rcases call_cases (m := m) (ofRegistry r) (scheme, answering driver) with
    ⟨hRegistered, hCall⟩ | ⟨hRegistered, hCall⟩
  · rw [isRegistered_ofRegistry] at hRegistered
    rw [hCall, Registry.register, if_pos hRegistered]
    rfl
  · rw [isRegistered_ofRegistry] at hRegistered
    rw [hCall, Registry.register, if_neg (by simp [hRegistered])]
    simp [ofRegistry, allAnswering, Except.map, Except.toOption]

/-! ## Which driver a scheme has -/

/-- Whether a driver is the one of the first call for a scheme. -/
def IsFirst (calls : List (Registration m)) (scheme : String) (driver : ActiveDriver m) : Prop :=
  ∃ before rest, calls = before ++ (scheme, driver) :: rest ∧ scheme ∉ before.map Prod.fst

section Lookup

variable {t : DriverTable m} {scheme : String} {driver : ActiveDriver m}

theorem driver?_eq_some_iff : t.driver? scheme = some driver ↔ IsFirst t.drivers scheme driver := by
  rw [driver?, Option.map_eq_some_iff]
  simp only [List.find?_eq_some_iff_append]
  constructor
  · rintro ⟨⟨_, _⟩, ⟨hSame, before, rest, hSplit, hBefore⟩, rfl⟩
    obtain rfl := eq_of_beq hSame
    refine ⟨before, rest, hSplit, fun hMem => ?_⟩
    obtain ⟨earlier, hEarlier, hScheme⟩ := List.mem_map.mp hMem
    simpa [hScheme] using hBefore earlier hEarlier
  · rintro ⟨before, rest, hSplit, hBefore⟩
    refine ⟨(scheme, driver), ⟨beq_self_eq_true scheme, before, rest, hSplit, ?_⟩, rfl⟩
    intro earlier hEarlier
    have hOther : earlier.1 ≠ scheme := fun hSame => hBefore (hSame ▸ List.mem_map_of_mem hEarlier)
    simpa using hOther

theorem driver?_eq_none_iff : t.driver? scheme = none ↔ scheme ∉ t.drivers.map Prod.fst := by
  rw [driver?, Option.map_eq_none_iff, List.find?_eq_none]
  grind

theorem isRegistered_eq_true_iff :
    t.isRegistered scheme = true ↔ scheme ∈ t.drivers.map Prod.fst := by
  rw [isRegistered, Option.isSome_iff_ne_none, ne_eq, driver?_eq_none_iff, Decidable.not_not]

/-- Of two lists of drivers the first one is asked first. -/
theorem driver?_append (l l' : List (Registration m)) (scheme : String) :
    driver? ⟨l ++ l'⟩ scheme = (driver? ⟨l⟩ scheme).or (driver? ⟨l'⟩ scheme) := by
  simp only [driver?, List.find?_append, Option.map_or]

/-- A call gives its driver to its scheme, if that has none, and takes no driver away. -/
theorem driver?_call (t : DriverTable m) (c : Registration m) (scheme : String) :
    (t.call c).2.driver? scheme = (t.driver? scheme).or (driver? ⟨[c]⟩ scheme) := by
  rcases call_cases t c with ⟨hRegistered, hCall⟩ | ⟨-, hCall⟩
  · rw [hCall]
    by_cases hSame : c.1 = scheme
    · -- The scheme has a driver already, and the one of the call is not asked.
      obtain ⟨driver, hDriver⟩ := Option.isSome_iff_exists.mp (hSame ▸ hRegistered)
      rw [hDriver, Option.some_or]
    · have hNone : driver? ⟨[c]⟩ scheme = none :=
        driver?_eq_none_iff.mpr (by simpa using Ne.symm hSame)
      rw [hNone, Option.or_none]
  · rw [hCall, driver?_append]

end Lookup

/-! ## Sequences of calls -/

section Sequences

variable {t : DriverTable m} {calls : List (Registration m)}

theorem after_append (t : DriverTable m) (calls more : List (Registration m)) :
    t.after (calls ++ more) = (t.after calls).after more :=
  List.foldl_append

/-- Calls on the table of a registry come to what registering the drivers there comes to. -/
theorem after_ofRegistry [Monad m] (r : Registry) (calls : List (String × FetchDriver)) :
    (ofRegistry r : DriverTable m).after (allAnswering calls) =
      ofRegistry (r.registerAll calls) := by
  induction calls generalizing r with
  | nil => rfl
  | cons c rest ih =>
    have hCall := congrArg Prod.snd (call_ofRegistry (m := m) r c.1 c.2)
    calc (ofRegistry r : DriverTable m).after (allAnswering (c :: rest))
      _ = ((ofRegistry r).call (c.1, answering c.2)).2.after (allAnswering rest) := rfl
      _ = (ofRegistry ((r.register c.1 c.2).toOption.getD r)).after (allAnswering rest) := by
        rw [hCall]
      _ = ofRegistry (r.registerAll (c :: rest)) := ih _

/-- After any calls a scheme has the driver that it had, or else that of the first call for it. -/
theorem driver?_after (t : DriverTable m) (calls : List (Registration m)) (scheme : String) :
    (t.after calls).driver? scheme = (t.driver? scheme).or (driver? ⟨calls⟩ scheme) := by
  -- The table changes from call to call, so the induction is for all tables; what a call leaves is
  -- the table before it with the call's own driver behind.
  induction calls generalizing t with
  | nil => exact (Option.or_none).symm
  | cons c rest ih =>
    calc (t.after (c :: rest)).driver? scheme
      _ = ((t.call c).2.driver? scheme).or (driver? ⟨rest⟩ scheme) := ih (t.call c).2
      _ = (t.driver? scheme).or ((driver? ⟨[c]⟩ scheme).or (driver? ⟨rest⟩ scheme)) := by
        rw [driver?_call, Option.or_assoc]
      _ = (t.driver? scheme).or (driver? ⟨c :: rest⟩ scheme) := by
        rw [← driver?_append, List.singleton_append]

theorem driver?_empty_after (calls : List (Registration m)) (scheme : String) :
    (empty.after calls).driver? scheme = driver? ⟨calls⟩ scheme :=
  driver?_after empty calls scheme

theorem isRegistered_empty_after_iff {scheme : String} :
    (empty.after calls).isRegistered scheme = true ↔ scheme ∈ calls.map Prod.fst := by
  rw [isRegistered, driver?_empty_after]
  exact isRegistered_eq_true_iff (t := ⟨calls⟩)

/-- No call puts a scheme into the table that is there already. -/
theorem nodup_after (h : (t.drivers.map Prod.fst).Nodup) :
    ((t.after calls).drivers.map Prod.fst).Nodup := by
  induction calls generalizing t with
  | nil => exact h
  | cons c rest ih =>
    refine ih (t := (t.call c).2) ?_
    rcases call_cases t c with ⟨-, hCall⟩ | ⟨hRegistered, hCall⟩
    · rw [hCall]
      exact h
    · have hNew : c.1 ∉ t.drivers.map Prod.fst := by
        rw [← isRegistered_eq_true_iff, hRegistered]
        exact Bool.false_ne_true
      rw [hCall, List.map_append, List.nodup_append]
      refine ⟨h, by simp, fun scheme hOld added hAdded hSame => hNew ?_⟩
      obtain rfl : added = c.1 := by simpa using hAdded
      exact hSame ▸ hOld

/-- All that a call can come to after other calls. -/
theorem call_empty_after_cases (calls : List (Registration m)) (c : Registration m) :
    let table := empty.after calls
    (c.1 ∈ calls.map Prod.fst ∧ table.call c = (.error (.duplicate c.1), table)) ∨
      (c.1 ∉ calls.map Prod.fst ∧ table.call c = (.ok (), ⟨table.drivers ++ [c]⟩)) := by
  simpa only [← isRegistered_empty_after_iff, Bool.not_eq_true] using
    call_cases (empty.after calls) c

/-- Whether one of some calls, which start from nothing, passes and registers a scheme. -/
def Registers (calls : List (Registration m)) (scheme : String) : Prop :=
  ∃ before driver rest, calls = before ++ (scheme, driver) :: rest ∧
    ((empty.after before).call (scheme, driver)).1 = .ok ()

theorem registers_iff {scheme : String} :
    Registers calls scheme ↔ scheme ∈ calls.map Prod.fst := by
  constructor
  · rintro ⟨before, driver, rest, rfl, -⟩
    simp
  · intro hNamed
    have hRegistered : (DriverTable.mk calls).isRegistered scheme = true :=
      isRegistered_eq_true_iff.mpr hNamed
    obtain ⟨driver, hDriver⟩ := Option.isSome_iff_exists.mp hRegistered
    obtain ⟨before, rest, hSplit, hFirst⟩ := driver?_eq_some_iff.mp hDriver
    -- Of the calls that name the scheme it is the first one that passes.
    refine ⟨before, driver, rest, hSplit, ?_⟩
    rcases call_empty_after_cases before (scheme, driver) with ⟨hNamed', -⟩ | ⟨-, hCall⟩
    · exact absurd hNamed' hFirst
    · rw [hCall]

end Sequences

/-! ## The first registration -/

/-- What calls start from: a table without drivers, or the one with the driver for files. -/
inductive Start (m : Type → Type) where
  | empty
  | builtin (file : ActiveDriver m)

/-- The calls that have made the start. -/
def Start.made : Start m → List (Registration m)
  | .empty => []
  | .builtin file => [("file", file)]

/-- The table at the start, which calls have made from one without drivers. -/
def Start.table (start : Start m) : DriverTable m := DriverTable.empty.after start.made

theorem Start.table_builtin [Monad m] (files : Files) :
    (Start.builtin (answering (fileDriver files))).table =
      (ofRegistry (.builtin files) : DriverTable m) := rfl

theorem Start.table_after (start : Start m) (calls : List (Registration m)) :
    start.table.after calls = DriverTable.empty.after (start.made ++ calls) :=
  (after_append _ _ _).symm

/-- **The first registration of a scheme counts.**  Let `calls` be any calls that register drivers
one after another, from one of the two starts on; the calls that have made the start come before
them.

1. A call is refused as a duplicate just if an earlier call has registered its scheme, and passes
   just if no earlier call names its scheme.  A call that does not pass is refused as a duplicate
   and leaves the whole table as it was.
2. After the calls no scheme is in the table twice, and a scheme has a driver just if a call names
   it.
3. Whatever the drivers do when they are called: fetching a URL is to call the driver of the first
   call that names exactly the scheme of the URL, with this URL, and to do nothing else; or no call
   names the scheme, and then it is to do nothing and to fail for want of a driver.
4. If the drivers do nothing but answer, the table is a registry: both starts are registries, a call
   answers what registering answers there, any calls lead to the table of the registry that
   registering leads to, and asking for a scheme and fetching come to the same. -/
theorem first_registration_counts [Monad m] (start : Start m) (calls : List (Registration m)) :
    (∀ before c rest, calls = before ++ c :: rest →
      let table := start.table.after before
      ((table.call c).1 = .error (.duplicate c.1) ↔ Registers (start.made ++ before) c.1) ∧
      ((table.call c).1 = .ok () ↔ c.1 ∉ (start.made ++ before).map Prod.fst) ∧
      ((table.call c).1 ≠ .ok () → table.call c = (.error (.duplicate c.1), table))) ∧
    ((start.table.after calls).drivers.map Prod.fst).Nodup ∧
    (∀ scheme, (start.table.after calls).isRegistered scheme = true ↔
      scheme ∈ (start.made ++ calls).map Prod.fst) ∧
    (∀ url : Url,
      (∃ driver, IsFirst (start.made ++ calls) url.scheme driver ∧
        (start.table.after calls).fetch url = driver url) ∨
      url.scheme ∉ (start.made ++ calls).map Prod.fst ∧
        (start.table.after calls).fetch url = pure (.error (.notRegistered url.scheme))) ∧
    (Start.empty.table : DriverTable m) = ofRegistry .empty ∧
    (∀ files, (Start.builtin (answering (fileDriver files))).table =
      (ofRegistry (.builtin files) : DriverTable m)) ∧
    ∀ r : Registry,
      (∀ scheme driver, ((ofRegistry r : DriverTable m).call (scheme, answering driver)).1 =
        (r.register scheme driver).map fun _ => ()) ∧
      (∀ drivers, (ofRegistry r : DriverTable m).after (allAnswering drivers) =
        ofRegistry (r.registerAll drivers)) ∧
      (∀ scheme, (ofRegistry r : DriverTable m).isRegistered scheme = r.isRegistered scheme) ∧
      ∀ url, (ofRegistry r : DriverTable m).fetch url = pure (r.fetch url) := by
  simp only [Start.table_after]
  refine ⟨fun before c rest _ => ?_, nodup_after List.nodup_nil,
    fun scheme => isRegistered_empty_after_iff, fun url => ?_, rfl, Start.table_builtin,
    fun r => ⟨fun scheme driver => congrArg Prod.fst (call_ofRegistry r scheme driver),
      after_ofRegistry r, isRegistered_ofRegistry r, fetch_ofRegistry r⟩⟩
  · rw [registers_iff]
    rcases call_empty_after_cases (start.made ++ before) c with ⟨hNamed, hCall⟩ | ⟨hNew, hCall⟩
    · rw [hCall]
      exact ⟨iff_of_true rfl hNamed, iff_of_false nofun (not_not_intro hNamed), fun _ => rfl⟩
    · rw [hCall]
      exact ⟨iff_of_false nofun hNew, iff_of_true rfl hNew, fun hFails => absurd rfl hFails⟩
  · cases hDriver : driver? ⟨start.made ++ calls⟩ url.scheme with
    | some driver =>
      refine .inl ⟨driver, driver?_eq_some_iff.mp hDriver, ?_⟩
      rw [fetch, driver?_empty_after, hDriver]
    | none =>
      refine .inr ⟨driver?_eq_none_iff.mp hDriver, ?_⟩
      rw [fetch, driver?_empty_after, hDriver]

/-- A driver that notes its name and the URL that it is called with, and answers with its name. -/
def noting (name : String) : ActiveDriver (StateM (List (String × Url))) := fun url => do
  modify fun noted => noted ++ [(name, url)]
  return .ok (Text.encode name)

/-- Three calls from the built-in start on, of which the last two are refused.  Fetching calls the
driver of the first call for a scheme and no other, and none for a scheme in capitals. -/
theorem first_registration_counts_two_refused :
    let start : Start (StateM (List (String × Url))) := .builtin (noting "file")
    let calls := [("kv", noting "first"), ("kv", noting "second"), ("file", noting "third")]
    let table := start.table.after [("kv", noting "first")]
    let url (scheme : String) : Url := ⟨scheme, none, .text "a", none, none⟩
    table.call ("kv", noting "second") = (.error (.duplicate "kv"), table) ∧
      (start.table.after calls).isRegistered "file" = true ∧
      ((start.table.after calls).fetch (url "kv")).run [] =
        (.ok (Text.encode "first"), [("first", url "kv")]) ∧
      ((start.table.after calls).fetch (url "file")).run [] =
        (.ok (Text.encode "file"), [("file", url "file")]) ∧
      ((start.table.after calls).fetch (url "KV")).run [] = (.error (.notRegistered "KV"), []) := by
  intro start calls table url
  obtain ⟨hCalls, -, hRegistered, hFetch, -⟩ := first_registration_counts start calls
  have hFetched (scheme : String) (driver : ActiveDriver (StateM (List (String × Url))))
      (hDriver : driver? ⟨start.made ++ calls⟩ scheme = some driver) :
      (start.table.after calls).fetch (url scheme) = driver (url scheme) := by
    rcases hFetch (url scheme) with ⟨driver', hFirst, hCalled⟩ | ⟨hNone, -⟩
    · rw [hCalled, Option.some.inj (hDriver.symm.trans (driver?_eq_some_iff.mpr hFirst))]
    · cases hDriver.symm.trans (driver?_eq_none_iff.mpr hNone)
  obtain ⟨-, hPasses, hRefused⟩ := hCalls [_] ("kv", noting "second") [_] rfl
  refine ⟨hRefused fun hOk => hPasses.mp hOk (by decide), (hRegistered "file").mpr (by decide),
    ?_, ?_, ?_⟩
  · rw [hFetched "kv" (noting "first") rfl]
    rfl
  · rw [hFetched "file" (noting "file") rfl]
    rfl
  · rcases hFetch (url "KV") with ⟨_, ⟨before, rest, hSplit, -⟩, -⟩ | ⟨-, hCalled⟩
    · have hNamed : "KV" ∈ (start.made ++ calls).map Prod.fst := by rw [hSplit]; simp [url]
      exact absurd hNamed (by decide)
    · rw [hCalled]
      rfl

end DriverTable

end SqlMetrics
