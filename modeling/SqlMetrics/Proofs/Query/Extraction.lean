import SqlMetrics.Proofs.Query.Candidates

/-!
# What an extraction gives

The points of an extraction and its errors, said of the rows and the settings of the query.

- **Pairs that give points**: `Query.Emits` says which pairs do, and `Query.Describes` which point
  a pair gives.
- **Pairs that fail**: `Query.Offends` says which pairs do, and with which error.
- **Points**: `points_correspond` matches the points of an extraction with its pairs.
- **Errors**: `error_of_first_offending` finds the error of an extraction among its pairs.
-/

namespace SqlMetrics.Query

open Number (Double)

/-! ## Settings -/

theorem given?_eq_none_iff {s : Option String} : given? s = none ↔ s = none ∨ s = some "" := by
  cases s with
  | none => simp [given?]
  | some text => simp [given?]

theorem given?_eq_some_iff {s : Option String} {text : String} :
    given? s = some text ↔ s = some text ∧ text ≠ "" := by
  rw [given?, Option.filter_eq_some_iff]
  simp

/-! ## Pairs that give points -/

/-- A pair gives a point when its template expands, and its column is not null or some default
template expands on the row to the same key. -/
def Emits (q : Query) (c : Candidate) : Prop :=
  ∃ key, Template.expand c.template c.row = .ok key ∧
    ((∃ v, c.row.get? c.column = some v ∧ v ≠ .null) ∨ q.HasDefault c.row key)

instance (q : Query) (c : Candidate) : Decidable (q.Emits c) :=
  match hExpand : Template.expand c.template c.row with
  | .error e => .isFalse fun ⟨key, hKey, _⟩ => by simp [hExpand] at hKey
  | .ok key =>
    decidable_of_iff ((∃ v ∈ c.row.get? c.column, v ≠ .null) ∨ q.HasDefault c.row key) (by
      simp [Emits, hExpand, Option.mem_def])

/-- The point of a pair, with the key that the template expands to. -/
structure Describes (q : Query) (now : Int64) (c : Candidate) (key : String) (p : MetricPoint) :
    Prop where
  /-- The key is what the template expands to on the row. -/
  expands : Template.expand c.template c.row = .ok key
  /-- The name is the key where the query has no prefix. -/
  name_plain : q.keyPrefix = none ∨ q.keyPrefix = some "" → p.name = key
  /-- The name is the key after the prefix and a dot where it has one. -/
  name_prefixed : ∀ text, q.keyPrefix = some text → text ≠ "" → p.name = text ++ "." ++ key
  /-- The column is one of the row. -/
  column : ∃ v, c.row.get? c.column = some v
  /-- A column that is not null gives its own value, whatever defaults there are. -/
  value_own : ∀ v : MetricValue, c.row.get? c.column = some v.toValue → p.value = v
  /-- A column that is null gives the default that counts for the key on the row. -/
  value_default : c.row.get? c.column = some .null →
    ∃ template value, q.IsDefault c.row key template value ∧ p.value = .float value
  /-- The time is the start of the query where it has no time column. -/
  time_start : q.time = none ∨ q.time = some "" → p.time = now
  /-- The time is the integer in the time column of the row where it has one. -/
  time_column : ∀ column, q.time = some column → column ≠ "" →
    c.row.get? column = some (.int p.time)

/-! ## Pairs that fail -/

/-- Why a row has no time. -/
inductive TimeFails (q : Query) (row : Row) : QueryError → Prop
  /-- The time column is not one of the row. -/
  | missing {column : String} : q.time = some column → column ≠ "" → row.get? column = none →
      TimeFails q row (.timeColumnMissing column)
  /-- The time column holds anything but an integer, null included. -/
  | notInteger {column : String} {v : Value} : q.time = some column → column ≠ "" →
      row.get? column = some v → (∀ n, v ≠ .int n) →
      TimeFails q row (.timeColumnNotInteger column)

/-- A pair offends when its template expands and something is wrong with its row. -/
inductive Offends (q : Query) (c : Candidate) : QueryError → Prop
  /-- The column of the pair is not one of the row. -/
  | column {key : String} : Template.expand c.template c.row = .ok key →
      c.row.get? c.column = none → Offends q c (.columnNotFound c.column)
  /-- There is a value, from the column or from a default, and no time for it. -/
  | time {key : String} {v : Value} {e : QueryError} :
      Template.expand c.template c.row = .ok key → c.row.get? c.column = some v →
      (v ≠ .null ∨ q.HasDefault c.row key) → q.TimeFails c.row e → Offends q c e

/-! ## The time of a row -/

/-- The time of a row cannot be told exactly where its time column is missing or holds no
integer. -/
theorem resolveTime_eq_error_iff {q : Query} {row : Row} {now : Int64} {e : QueryError} :
    q.resolveTime row now = .error e ↔ q.TimeFails row e := by
  rw [resolveTime]
  constructor
  · intro hError
    cases hTime : given? q.time with
    | none => simp [hTime] at hError
    | some column =>
      obtain ⟨hColumn, hNe⟩ := given?_eq_some_iff.mp hTime
      simp only [hTime] at hError
      split at hError
      case h_1 => cases hError
      case h_2 v hNotInt hHeld =>
        cases hError
        exact .notInteger hColumn hNe hHeld fun n hInt => hNotInt n hInt
      case h_3 hMissing =>
        cases hError
        exact .missing hColumn hNe hMissing
  · intro hFails
    cases hFails with
    | missing hColumn hNe hMissing =>
      rw [given?_eq_some_iff.mpr ⟨hColumn, hNe⟩]
      simp only [hMissing]
    | @notInteger column v hColumn hNe hHeld hNotInt =>
      rw [given?_eq_some_iff.mpr ⟨hColumn, hNe⟩]
      cases v with
      | int n => exact absurd rfl (hNotInt n)
      | null => simp only [hHeld]
      | text s => simp only [hHeld]
      | float x => simp only [hHeld]
      | bool b => simp only [hHeld]

/-- The time of a row is the start of the query, or the integer in the time column. -/
theorem resolveTime_eq_ok {q : Query} {row : Row} {now t : Int64}
    (h : q.resolveTime row now = .ok t) :
    (q.time = none ∨ q.time = some "" → t = now) ∧
      ∀ column, q.time = some column → column ≠ "" → row.get? column = some (.int t) := by
  rw [resolveTime] at h
  constructor
  · intro hAbsent
    rw [given?_eq_none_iff.mpr hAbsent] at h
    exact (Except.ok.inj h).symm
  · intro column hColumn hNe
    rw [given?_eq_some_iff.mpr ⟨hColumn, hNe⟩] at h
    dsimp only at h
    split at h
    case h_1 n hHeld =>
      cases h
      exact hHeld
    case h_2 => cases h
    case h_3 => cases h

/-! ## The outcome of a pair -/

/-- A pair fails exactly where it offends. -/
theorem outcome_eq_failed_iff {q : Query} {now : Int64} {c : Candidate} {e : QueryError} :
    q.outcome now c = .failed e ↔ q.Offends c e := by
  have hSettles := q.settles_outcome now c
  constructor
  · intro hFailed
    rw [hFailed] at hSettles
    cases hSettles with
    | columnMissing hExpand hColumn => exact .column hExpand hColumn
    | timeFails hExpand hColumn hAvailable hTime =>
      exact .time hExpand hColumn hAvailable (resolveTime_eq_error_iff.mp hTime)
  · intro hOffends
    -- What makes the pair offend lets the walk pass all checks before the one that fails.
    rw [outcome, entryOutcome]
    cases hOffends with
    | column hExpand hColumn => simp only [hExpand, hColumn]
    | time hExpand hColumn hAvailable hFails =>
      obtain ⟨m, hValue⟩ := pointValue?_isSome_iff.mpr hAvailable
      have hTime : q.resolveTime c.row now = .error e := resolveTime_eq_error_iff.mpr hFails
      simp only [hExpand, hColumn, hValue, hTime]

/-- A pair that does not fail gives a point exactly where it is said to. -/
theorem emits_iff {q : Query} {now : Int64} {c : Candidate}
    (h : ∀ e, q.outcome now c ≠ .failed e) : q.Emits c ↔ ∃ p, q.outcome now c = .point p := by
  have hSettles := q.settles_outcome now c
  generalize q.outcome now c = o at h hSettles
  cases hSettles with
  | columnMissing => exact absurd rfl (h _)
  | timeFails => exact absurd rfl (h _)
  | skipped hExpand => simp [Emits, hExpand]
  | absent hExpand hColumn hDefault =>
    -- The column is null, and there is no default for the key.
    simp [Emits, hExpand, hColumn, hDefault]
  | @point key v m time hExpand hColumn hValue hTime =>
    have hAvailable := pointValue?_isSome_iff.mp ⟨m, hValue⟩
    simpa [Emits, hExpand, hColumn] using hAvailable

/-- The value of a point is the column's own, or else the default that counts. -/
theorem pointValue?_eq_some {q : Query} {row : Row} {key : String} {v : Value} {m : MetricValue}
    (h : pointValue? (q.defaults row) key v = some m) :
    (∀ own : MetricValue, v = own.toValue → m = own) ∧
      (v = .null → ∃ template value, q.IsDefault row key template value ∧ m = .float value) := by
  rw [pointValue?] at h
  constructor
  · intro own hOwn
    rw [Value.toMetric?_eq_some_iff.mpr hOwn] at h
    exact (Option.some.inj h).symm
  · intro hNull
    rw [Value.toMetric?_eq_none_iff.mpr hNull] at h
    obtain ⟨value, hFound, rfl⟩ := Option.map_eq_some_iff.mp h
    obtain ⟨template, hDefault⟩ := IsDefault.of_get? hFound
    exact ⟨template, value, hDefault, rfl⟩

theorem pointName_eq (q : Query) (key : String) :
    (q.keyPrefix = none ∨ q.keyPrefix = some "" → q.pointName key = key) ∧
      ∀ text, q.keyPrefix = some text → text ≠ "" → q.pointName key = text ++ "." ++ key := by
  rw [pointName]
  constructor
  · intro hAbsent
    rw [given?_eq_none_iff.mpr hAbsent]
  · intro text hText hNe
    rw [given?_eq_some_iff.mpr ⟨hText, hNe⟩]

/-- The point of a pair is the one that is described. -/
theorem describes_of_outcome {q : Query} {now : Int64} {c : Candidate} {p : MetricPoint}
    (h : q.outcome now c = .point p) : ∃ key, q.Describes now c key p := by
  have hSettles := q.settles_outcome now c
  rw [h] at hSettles
  cases hSettles with
  | @point key v m time hExpand hColumn hValue hTime =>
    obtain ⟨hOwn, hDefault⟩ := pointValue?_eq_some hValue
    obtain ⟨hStart, hTimeColumn⟩ := resolveTime_eq_ok hTime
    refine ⟨key, ?_⟩
    exact {
      expands := hExpand
      name_plain := (q.pointName_eq key).1
      name_prefixed := (q.pointName_eq key).2
      column := ⟨v, hColumn⟩
      value_own := fun own hHeld => hOwn own (Option.some.inj (hColumn.symm.trans hHeld))
      value_default := fun hNull => hDefault (Option.some.inj (hColumn.symm.trans hNull))
      time_start := hStart
      time_column := hTimeColumn }

/-! ## Points -/

/-- Where a list is filtered by what a partial function is defined on, its values correspond to
what is left. -/
theorem forall₂_filter_filterMap {α β : Type} {P : α → Prop} [DecidablePred P] {f : α → Option β}
    {R : α → β → Prop} {l : List α} (hDefined : ∀ a ∈ l, P a ↔ ∃ b, f a = some b)
    (hRelated : ∀ a b, f a = some b → R a b) :
    List.Forall₂ R (l.filter (P ·)) (l.filterMap f) := by
  -- On the list: an element is kept exactly where it has a value.
  induction l with
  | nil => exact .nil
  | cons a rest ih =>
    have hRest := ih fun a' hMem => hDefined a' (List.mem_cons_of_mem _ hMem)
    have hHead := hDefined a List.mem_cons_self
    cases hValue : f a with
    | none =>
      have hNot : ¬ P a := by simp [hHead, hValue]
      simpa [List.filter_cons, List.filterMap_cons, hNot, hValue] using hRest
    | some b =>
      have hHolds : P a := hHead.mpr ⟨b, hValue⟩
      simpa [List.filter_cons, List.filterMap_cons, hHolds, hValue] using
        ⟨hRelated a b hValue, hRest⟩

/-- The points of an extraction are those of the pairs that give points. -/
theorem forall₂_emitting {q : Query} {rows : List Row} {now : Int64} {points : List MetricPoint}
    (h : (q.extract rows now).result = .ok points) :
    List.Forall₂ (fun c p => ∃ key, q.Describes now c key p)
      ((q.candidates rows).filter (q.Emits ·)) points := by
  obtain ⟨hNone, rfl⟩ := result_extract_eq_ok_iff.mp h
  refine forall₂_filter_filterMap (fun c hMem => ?_) fun c p hPoint => ?_
  · simp only [point?_eq_some_iff]
    exact emits_iff (hNone c hMem)
  · exact describes_of_outcome (point?_eq_some_iff.mp hPoint)

/-- Of two lists that correspond, each element of the second one has a partner in the first. -/
theorem exists_of_mem_right {α β : Type} {R : α → β → Prop} {as : List α} {bs : List β} {b : β}
    (h : List.Forall₂ R as bs) (hMem : b ∈ bs) : ∃ a ∈ as, R a b := by
  induction h with
  | nil => cases hMem
  | cons hHead _ ih =>
    cases hMem with
    | head => exact ⟨_, List.mem_cons_self, hHead⟩
    | tail _ hRest =>
      obtain ⟨a, hIn, hRelated⟩ := ih hRest
      exact ⟨a, List.mem_cons_of_mem _ hIn, hRelated⟩

/-- The points of an extraction without a time column have its start as their time. -/
theorem time_eq_of_mem {q : Query} {rows : List Row} {now : Int64} {points : List MetricPoint}
    (h : (q.extract rows now).result = .ok points) (hAbsent : q.time = none ∨ q.time = some "")
    {p : MetricPoint} (hMem : p ∈ points) : p.time = now := by
  obtain ⟨c, -, key, hDescribes⟩ := exists_of_mem_right (forall₂_emitting h) hMem
  exact hDescribes.time_start hAbsent

theorem candidates_cons (q : Query) (row : Row) (rows : List Row) :
    q.candidates (row :: rows) = q.candidates [row] ++ q.candidates rows := by
  simp [candidates]

/-- The points of several rows are those of each row on its own, in the order of the rows. -/
theorem exists_parts {q : Query} {rows : List Row} {now : Int64} {points : List MetricPoint}
    (h : (q.extract rows now).result = .ok points) :
    ∃ parts : List (List MetricPoint), points = parts.flatten ∧
      List.Forall₂ (fun row part => (q.extract [row] now).result = .ok part) rows parts := by
  induction rows generalizing points with
  | nil =>
    obtain ⟨-, rfl⟩ := result_extract_eq_ok_iff.mp h
    exact ⟨[], rfl, .nil⟩
  | cons row rest ih =>
    -- No pair of all fails, so neither the first row nor those behind it have one that does.
    obtain ⟨hNone, rfl⟩ := result_extract_eq_ok_iff.mp h
    rw [candidates_cons] at hNone ⊢
    have hFirst := result_extract_eq_ok_iff.mpr
      ⟨fun c hMem => hNone c (List.mem_append_left _ hMem), rfl⟩
    have hRest := result_extract_eq_ok_iff.mpr
      ⟨fun c hMem => hNone c (List.mem_append_right _ hMem), rfl⟩
    obtain ⟨parts, hFlatten, hParts⟩ := ih hRest
    refine ⟨_ :: parts, ?_, .cons hFirst hParts⟩
    rw [List.filterMap_append, List.flatten_cons, hFlatten]

/-- **The points of an extraction are those of its pairs.**  When an extraction succeeds:
1. the entries of a row are met in the order of the bytes of their templates;
2. the points correspond one to one and in order to the pairs that give points, and each is the one
   that is described by its own row and entry;
3. the points are those that each row gives on its own, so that nothing of one row reaches the
   points of another. -/
theorem points_correspond (q : Query) (rows : List Row) (now : Int64) (points : List MetricPoint)
    (h : (q.extract rows now).result = .ok points) :
    (q.valueKey.toList.Pairwise fun a b => Text.encode a.1 < Text.encode b.1) ∧
    List.Forall₂ (fun c p => ∃ key, q.Describes now c key p)
      ((q.candidates rows).filter (q.Emits ·)) points ∧
    ∃ parts : List (List MetricPoint), points = parts.flatten ∧
      List.Forall₂ (fun row part => (q.extract [row] now).result = .ok part) rows parts :=
  ⟨bytes_ascending q.valueKey, forall₂_emitting h, exists_parts h⟩

/-- Two rows and a query with a prefix: the null of the first row is replaced by the greater of two
defaults whose templates expand to one key there, and the second row gives its own value. -/
theorem points_correspond_default_and_value :
    let q : Query :=
      { keyPrefix := some "db"
        valueKey := KeyMap.ofList [("conn.#\x7bhost\x7d", "n")]
        defaultValue := KeyMap.ofList
          [("conn.web", ⟨0x3ff0000000000000⟩), ("conn.#\x7bhost\x7d", ⟨0⟩)] }
    let rows : List Row := [KeyMap.ofList [("host", .text "web"), ("n", .null)],
      KeyMap.ofList [("host", .text " web 1"), ("n", .int 3)]]
    let points : List MetricPoint := [⟨"db.conn.web", 7, .float ⟨0x3ff0000000000000⟩⟩,
      ⟨"db.conn.web_1", 7, .int 3⟩]
    (q.extract rows 7).result = .ok points ∧
      List.Forall₂ (fun c p => ∃ key, q.Describes 7 c key p)
        ((q.candidates rows).filter (q.Emits ·)) points := by
  intro q rows points
  have hResult : (q.extract rows 7).result = .ok points := by cbv
  exact ⟨hResult, (points_correspond q rows 7 points hResult).2.1⟩

/-! ## Errors -/

theorem not_offends_of_not_expands {q : Query} {c : Candidate}
    (h : ∀ key, Template.expand c.template c.row ≠ .ok key) (e : QueryError) :
    ¬ q.Offends c e := by
  intro hOffends
  cases hOffends with
  | column hExpand => exact h _ hExpand
  | time hExpand => exact h _ hExpand

theorem not_offends_of_null {q : Query} {c : Candidate} {key : String}
    (hExpand : Template.expand c.template c.row = .ok key)
    (hNull : c.row.get? c.column = some .null) (hDefault : ¬ q.HasDefault c.row key)
    (e : QueryError) : ¬ q.Offends c e := by
  intro hOffends
  cases hOffends with
  | column _ hColumn => simp [hNull] at hColumn
  | time hOther hColumn hAvailable =>
    obtain rfl := Except.ok.inj (hExpand.symm.trans hOther)
    obtain rfl := Option.some.inj (hNull.symm.trans hColumn)
    exact hAvailable.elim (fun hNe => hNe rfl) hDefault

/-- **The error of an extraction is that of its first offending pair.**
1. The entries of a row are met in the order of the bytes of their templates.
2. An extraction fails with an error exactly where some pair offends with it and no pair before that
   one offends.
3. An extraction gives points exactly where no pair offends.
4. A pair whose template does not expand does not offend, whatever else is missing in its row.
5. Neither does a pair whose column is null and whose key has no default. -/
theorem error_of_first_offending (q : Query) (rows : List Row) (now : Int64) :
    (q.valueKey.toList.Pairwise fun a b => Text.encode a.1 < Text.encode b.1) ∧
    (∀ e, (q.extract rows now).result = .error e ↔
      ∃ before c after, q.candidates rows = before ++ c :: after ∧ q.Offends c e ∧
        ∀ b ∈ before, ∀ e', ¬ q.Offends b e') ∧
    ((∃ points, (q.extract rows now).result = .ok points) ↔
      ∀ c ∈ q.candidates rows, ∀ e, ¬ q.Offends c e) ∧
    (∀ c : Candidate, (∀ key, Template.expand c.template c.row ≠ .ok key) →
      ∀ e, ¬ q.Offends c e) ∧
    (∀ (c : Candidate) (key : String), Template.expand c.template c.row = .ok key →
      c.row.get? c.column = some .null → ¬ q.HasDefault c.row key → ∀ e, ¬ q.Offends c e) := by
  refine ⟨bytes_ascending q.valueKey, fun e => ?_, ?_, ?_, ?_⟩
  · simp only [result_extract_eq_error_iff, ne_eq, outcome_eq_failed_iff]
  · simp only [result_extract_eq_ok_iff, ne_eq, outcome_eq_failed_iff, exists_and_left,
      exists_eq', and_true]
  · intro c hExpand e
    exact not_offends_of_not_expands hExpand e
  · intro c key hExpand hNull hDefault e
    exact not_offends_of_null hExpand hNull hDefault e

/-- A default can make a pair offend: the null of the first pair has one, so its point lacks a time,
and the missing column of the second pair comes too late. -/
theorem error_of_first_offending_default :
    let q : Query :=
      { valueKey := KeyMap.ofList [("a", "n"), ("b", "missing")]
        defaultValue := KeyMap.ofList [("a", ⟨0⟩)]
        time := some "at" }
    let rows : List Row := [KeyMap.ofList [("n", .null)]]
    ∃ before c after, q.candidates rows = before ++ c :: after ∧
      q.Offends c (.timeColumnMissing "at") ∧ ∀ b ∈ before, ∀ e', ¬ q.Offends b e' := by
  intro q rows
  have hResult : (q.extract rows 7).result = .error (.timeColumnMissing "at") := by cbv
  exact ((error_of_first_offending q rows 7).2.1 _).mp hResult

end SqlMetrics.Query
