import Mathlib
import SqlMetrics.Source.Dsn

/-!
# What is wrong with a data source name

A data source name has a driver up to the first `://`, and it is refused where there is none or where
the driver is unknown.  Whatever else goes wrong with a data source goes wrong when it is opened.

- **Drivers**: `EndsFirst` says what stands before the first separator (`parse_eq_ok`).
- **Refusals**: `ofDsn_eq_error_iff` says which names are refused, `openWith_eq_error` what else goes
  wrong.
-/

namespace SqlMetrics

/-- What stands between the driver and what the driver gets. -/
abbrev separator : List Char := [':', '/', '/']

/-! ## Drivers -/

/-- The characters up to the first separator are these. -/
def EndsFirst (cs driver : List Char) : Prop :=
  ∃ rest, cs = driver ++ separator ++ rest ∧
    ∀ before after, cs = before ++ separator ++ after → driver.length ≤ before.length

theorem splitDriver_eq_none {cs : List Char} (h : splitDriver cs = none) (before after : List Char) :
    cs ≠ before ++ separator ++ after := by
  fun_induction splitDriver cs generalizing before with
  | case1 rest => cases h
  | case2 c rest hFirst ih =>
    rintro hSplit
    cases before with
    | nil =>
      obtain ⟨rfl, rfl⟩ := List.cons.inj hSplit
      exact hFirst after rfl rfl
    | cons b before =>
      -- A separator behind the first character is one of the rest.
      obtain ⟨rfl, hRest⟩ := List.cons.inj hSplit
      exact ih (Option.map_eq_none_iff.mp h) before hRest
  | case3 => cases before <;> exact nofun

theorem splitDriver_eq_some {cs driver rest : List Char}
    (h : splitDriver cs = some (driver, rest)) :
    cs = driver ++ separator ++ rest ∧
      ∀ before after, cs = before ++ separator ++ after → driver.length ≤ before.length := by
  fun_induction splitDriver cs generalizing driver rest with
  | case1 rest =>
    cases h
    exact ⟨rfl, fun _ _ _ => Nat.zero_le _⟩
  | case2 c cs hFirst ih =>
    obtain ⟨⟨d, r⟩, hRest, hSame⟩ := Option.map_eq_some_iff.mp h
    cases hSame
    obtain ⟨rfl, hLeast⟩ := ih hRest
    refine ⟨rfl, fun before after hSplit => ?_⟩
    cases before with
    | nil =>
      obtain ⟨rfl, hSlashes⟩ := List.cons.inj hSplit
      exact (hFirst after rfl hSlashes).elim
    | cons b before =>
      obtain ⟨-, hSplit⟩ := List.cons.inj hSplit
      exact Nat.succ_le_succ (hLeast before after hSplit)
  | case3 => cases h

theorem EndsFirst.unique {cs driver other : List Char} (h : EndsFirst cs driver)
    (hOther : EndsFirst cs other) : driver = other := by
  obtain ⟨rest, rfl, hLeast⟩ := h
  obtain ⟨after, hSplit, hLeast'⟩ := hOther
  have hLength : driver.length = other.length :=
    (hLeast other after hSplit).antisymm (hLeast' driver rest rfl)
  rw [List.append_assoc, List.append_assoc] at hSplit
  exact List.append_inj_left hSplit hLength

/-- The driver of a name is what stands before the first separator. -/
theorem parse_eq_ok {s : String} {dsn : Dsn} (h : Dsn.parse s = .ok dsn) :
    EndsFirst s.toList dsn.driver.toList := by
  unfold Dsn.parse at h
  split at h
  · next driver rest hSplit =>
    cases h
    obtain ⟨hChars, hLeast⟩ := splitDriver_eq_some hSplit
    exact ⟨rest, by rwa [String.toList_ofList], by rwa [String.toList_ofList]⟩
  · cases h

theorem parse_eq_error {s : String} {e : SourceError} (h : Dsn.parse s = .error e) :
    e = .invalidDsn s ∧ ∀ driver, ¬ EndsFirst s.toList driver := by
  unfold Dsn.parse at h
  split at h
  · cases h
  · next hNone =>
    cases h
    exact ⟨rfl, fun driver ⟨rest, hSplit, _⟩ => splitDriver_eq_none hNone driver rest hSplit⟩

/-! ## Refusals -/

namespace DataSource

/-- The drivers. -/
def drivers : List String :=
  ["sqlite", "sqlite3", "postgres", "postgresql", "mysql"]

/-- A name is refused for its form or for its driver. -/
inductive Refuses (s : String) : SourceError → Prop where
  /-- There is no separator. -/
  | form (hNone : ∀ driver, ¬ EndsFirst s.toList driver) : Refuses s (.invalidDsn s)
  /-- The driver is unknown. -/
  | driver {name : String} (hDriver : EndsFirst s.toList name.toList) (hUnknown : name ∉ drivers) :
    Refuses s (.unsupportedDriver name)

theorem ofDsn_eq_error_iff {s : String} {e : SourceError} :
    ofDsn s = .error e ↔ Refuses s e := by
  unfold ofDsn
  cases hParse : Dsn.parse s with
  | error cause =>
    obtain ⟨rfl, hNone⟩ := parse_eq_error hParse
    constructor
    · intro h
      cases h
      exact .form hNone
    · intro h
      cases h with
      | form => rfl
      | driver hDriver => exact absurd hDriver (hNone _)
  | ok dsn =>
    have hDriver := parse_eq_ok hParse
    constructor
    · intro h
      dsimp only at h
      split at h
      case h_6 hSqlite hSqlite3 hPostgres hPostgresql hMySql =>
        cases h
        refine .driver hDriver ?_
        simp only [drivers, List.mem_cons, List.not_mem_nil, or_false, not_or]
        exact ⟨hSqlite, hSqlite3, hPostgres, hPostgresql, hMySql⟩
      all_goals cases h
    · intro h
      cases h with
      | form hNone => exact absurd hDriver (hNone _)
      | @driver name hOther hUnknown =>
        obtain rfl : dsn.driver = name := String.toList_inj.mp (hDriver.unique hOther)
        dsimp only
        split
        case h_6 => rfl
        all_goals
          rename_i hKnown
          simp [drivers, hKnown] at hUnknown

/-- What goes wrong when a data source is opened goes wrong with the database. -/
theorem openWith_eq_error {files : Files} {connect : ServerKind → String → Except ServerError Unit}
    {source : DataSource} {e : SourceError} (h : source.openWith files connect = .error e) :
    (∃ path cause, e = .notOpened path cause) ∨ ∃ kind cause, e = .notConnected kind cause := by
  cases source with
  | sqlite path =>
    simp only [openWith, openSqlite] at h
    split at h
    · cases h
    · split at h
      · cases h
        exact .inl ⟨_, _, rfl⟩
      · split at h <;> cases h
        exact .inl ⟨_, _, rfl⟩
  | server kind url =>
    simp only [openWith] at h
    split at h <;> cases h
    exact .inr ⟨_, _, rfl⟩

end DataSource

end SqlMetrics
