import Mathlib
import SqlMetrics.Query.Extraction
import SqlMetrics.Proofs.Text.ByteOrder

/-!
# Pairs of rows and keys

An extraction meets the pairs of a row and an entry of `valueKey` one after another.  This module
says what comes of one pair, and what comes of a list of pairs.

- **Values**: a column that is not null holds a metric value.
- **Pairs**: `Query.candidates` lists them in the order in which they are met.
- **Defaults**: the default of a key on a row is that of the greatest template that expands to the
  key there, and greatest means greatest by bytes.
- **Outcomes**: `Query.Settles` says what can come of a pair.
- **The walk**: `Query.result_extract` says that an extraction comes to what its pairs come to.
-/

namespace SqlMetrics

open Number (Double)

/-! ## Values -/

/-- The column value that carries a metric value. -/
def MetricValue.toValue : MetricValue → Value
  | .int n => .int n
  | .float x => .float x
  | .bool b => .bool b
  | .text s => .text s

/-- The metric value of a column is the one that the column carries. -/
theorem Value.toMetric?_eq_some_iff {v : Value} {m : MetricValue} :
    v.toMetric? = some m ↔ v = m.toValue := by
  cases v <;> cases m <;> simp [Value.toMetric?, MetricValue.toValue]

theorem Value.toMetric?_eq_none_iff {v : Value} : v.toMetric? = none ↔ v = .null := by
  cases v <;> simp [Value.toMetric?]

namespace Query

/-! ## Pairs -/

/-- A pair of a row and an entry of `valueKey`. -/
structure Candidate where
  row : Row
  template : String
  column : String

/-- The pairs of rows and entries: row by row, and inside a row in the order of the templates. -/
def candidates (q : Query) (rows : List Row) : List Candidate :=
  rows.flatMap fun row => q.valueKey.toList.map fun entry => ⟨row, entry.1, entry.2⟩

/-- The templates of a map ascend by their bytes. -/
theorem bytes_ascending {α : Type} (m : KeyMap α) :
    m.toList.Pairwise fun a b => Text.encode a.1 < Text.encode b.1 :=
  m.ascending.imp Text.encode_lt_encode_iff.mpr

/-! ## Defaults -/

/-- Some default template expands to the key on the row. -/
def HasDefault (q : Query) (row : Row) (key : String) : Prop :=
  ∃ entry ∈ q.defaultValue.toList, Template.expand entry.1 row = .ok key

instance (q : Query) (row : Row) (key : String) : Decidable (q.HasDefault row key) :=
  inferInstanceAs (Decidable (∃ entry ∈ q.defaultValue.toList, _))

/-- The default that counts for a key on a row. -/
structure IsDefault (q : Query) (row : Row) (key template : String) (value : Double) : Prop where
  /-- It is configured. -/
  mem : (template, value) ∈ q.defaultValue.toList
  /-- Its template expands to the key on this row. -/
  expands : Template.expand template row = .ok key
  /-- Every other default template that does so on this row has smaller bytes. -/
  greatest : ∀ other x, (other, x) ∈ q.defaultValue.toList →
    Template.expand other row = .ok key → other ≠ template →
    Text.encode other < Text.encode template

/-- What an entry of the defaults adds to those of a row: its key and its value, if it expands. -/
def keyedDefault? (row : Row) (entry : String × Double) : Option (String × Double) :=
  match Template.expand entry.1 row with
  | .ok key => some (key, entry.2)
  | .error _ => none

/-- The default that is looked up is that of the last template that expands to the key. -/
theorem get?_defaults (q : Query) (row : Row) (key : String) :
    (q.defaults row).get? key =
      (q.defaultValue.toList.filter fun entry =>
        Template.expand entry.1 row = .ok key).getLast?.map Prod.snd := by
  rw [defaults, KeyMap.get?_ofList, expandedDefaults, List.filterMap_map]
  -- On the entries: the expanded list keeps those that expand, with their keys.
  have hFilter (l : List (String × Double)) :
      (l.filterMap (keyedDefault? row)).filter (fun entry => entry.1 = key) =
        (l.filter fun entry => Template.expand entry.1 row = .ok key).map fun entry =>
          (key, entry.2) := by
    induction l with
    | nil => rfl
    | cons entry rest ih =>
      rw [List.filterMap_cons, List.filter_cons, keyedDefault?]
      cases hExpand : Template.expand entry.1 row with
      | error e => simpa using ih
      | ok found =>
        by_cases hSame : found = key
        · simp [hSame, ih]
        · simp [hSame, ih]
  refine Eq.trans (congrArg (fun l => l.getLast?.map Prod.snd) (hFilter _)) ?_
  rw [List.getLast?_map, Option.map_map]
  rfl

theorem get?_defaults_eq_none_iff {q : Query} {row : Row} {key : String} :
    (q.defaults row).get? key = none ↔ ¬ q.HasDefault row key := by
  rw [get?_defaults, Option.map_eq_none_iff, List.getLast?_eq_none_iff, List.filter_eq_nil_iff]
  simp [HasDefault]

/-- A default that is looked up is the one that counts. -/
theorem IsDefault.of_get? {q : Query} {row : Row} {key : String} {value : Double}
    (h : (q.defaults row).get? key = some value) :
    ∃ template, q.IsDefault row key template value := by
  rw [get?_defaults, Option.map_eq_some_iff] at h
  obtain ⟨⟨template, found⟩, hLast, rfl⟩ := h
  obtain ⟨before, hSplit⟩ := List.getLast?_eq_some_iff.mp hLast
  have hMem (entry : String × Double) :
      entry ∈ before ++ [(template, found)] ↔
        entry ∈ q.defaultValue.toList ∧ Template.expand entry.1 row = .ok key := by
    rw [← hSplit, List.mem_filter, decide_eq_true_iff]
  have hSelf := (hMem (template, found)).mp (by simp)
  refine ⟨template, hSelf.1, hSelf.2, fun other x hOther hExpands hNe => ?_⟩
  -- The others stand before the last one, and the templates ascend.
  have hAscending := (bytes_ascending q.defaultValue).sublist
    (List.filter_sublist (p := fun entry => decide (Template.expand entry.1 row = .ok key)))
  rw [hSplit, List.pairwise_append] at hAscending
  rcases List.mem_append.mp ((hMem (other, x)).mpr ⟨hOther, hExpands⟩) with hBefore | hLast
  · exact hAscending.2.2 _ hBefore _ (List.mem_singleton_self _)
  · exact absurd (congrArg Prod.fst (List.mem_singleton.mp hLast)) hNe

/-! ## Outcomes -/

/-- What comes of a pair. -/
def outcome (q : Query) (now : Int64) (c : Candidate) : EntryOutcome :=
  q.entryOutcome c.row now (q.defaults c.row) c.template c.column

/-- What can come of a pair, with all that the walk has found out about it by then. -/
inductive Settles (q : Query) (now : Int64) (c : Candidate) : EntryOutcome → Prop
  | skipped {e : TemplateError} : Template.expand c.template c.row = .error e →
      Settles q now c (.skipped ⟨e, c.template, q.sql⟩)
  | columnMissing {key : String} : Template.expand c.template c.row = .ok key →
      c.row.get? c.column = none → Settles q now c (.failed (.columnNotFound c.column))
  | absent {key : String} : Template.expand c.template c.row = .ok key →
      c.row.get? c.column = some .null → ¬ q.HasDefault c.row key → Settles q now c .absent
  | timeFails {key : String} {v : Value} {e : QueryError} :
      Template.expand c.template c.row = .ok key → c.row.get? c.column = some v →
      (v ≠ .null ∨ q.HasDefault c.row key) → q.resolveTime c.row now = .error e →
      Settles q now c (.failed e)
  | point {key : String} {v : Value} {m : MetricValue} {time : Int64} :
      Template.expand c.template c.row = .ok key → c.row.get? c.column = some v →
      pointValue? (q.defaults c.row) key v = some m → q.resolveTime c.row now = .ok time →
      Settles q now c (.point ⟨q.pointName key, time, m⟩)

theorem pointValue?_eq_none_iff {q : Query} {row : Row} {key : String} {v : Value} :
    pointValue? (q.defaults row) key v = none ↔ v = .null ∧ ¬ q.HasDefault row key := by
  rw [← get?_defaults_eq_none_iff, ← Value.toMetric?_eq_none_iff, pointValue?]
  cases v.toMetric? with
  | none => simp
  | some m => simp

theorem pointValue?_isSome_iff {q : Query} {row : Row} {key : String} {v : Value} :
    (∃ m, pointValue? (q.defaults row) key v = some m) ↔ v ≠ .null ∨ q.HasDefault row key := by
  rw [← Option.isSome_iff_exists, ← Option.ne_none_iff_isSome, ne_eq, pointValue?_eq_none_iff]
  tauto

/-- **The outcome of a pair** is what its row and the settings of the query make it. -/
theorem settles_outcome (q : Query) (now : Int64) (c : Candidate) :
    q.Settles now c (q.outcome now c) := by
  rw [outcome, entryOutcome]
  -- In the order of the walk: the template, the column, the value, the time.
  cases hExpand : Template.expand c.template c.row with
  | error e => exact .skipped hExpand
  | ok key =>
    cases hColumn : c.row.get? c.column with
    | none => exact .columnMissing hExpand hColumn
    | some v =>
      cases hValue : pointValue? (q.defaults c.row) key v with
      | none =>
        obtain ⟨rfl, hDefault⟩ := pointValue?_eq_none_iff.mp hValue
        simp only [hValue]
        exact .absent hExpand hColumn hDefault
      | some m =>
        have hAvailable := pointValue?_isSome_iff.mp ⟨m, hValue⟩
        simp only [hValue]
        cases hTime : q.resolveTime c.row now with
        | error e => exact .timeFails hExpand hColumn hAvailable hTime
        | ok time => exact .point hExpand hColumn hValue hTime

/-- The point that an outcome brings. -/
def point? : EntryOutcome → Option MetricPoint
  | .point p => some p
  | _ => none

/-- The error that an outcome is. -/
def error? : EntryOutcome → Option QueryError
  | .failed e => some e
  | _ => none

theorem point?_eq_some_iff {o : EntryOutcome} {p : MetricPoint} :
    point? o = some p ↔ o = .point p := by
  cases o <;> simp [point?]

theorem error?_eq_some_iff {o : EntryOutcome} {e : QueryError} :
    error? o = some e ↔ o = .failed e := by
  cases o <;> simp [error?]

theorem error?_eq_none_iff {o : EntryOutcome} : error? o = none ↔ ∀ e, o ≠ .failed e := by
  cases o <;> simp [error?]

/-- What outcomes come to: the first error among them, or all their points. -/
def collect (outcomes : List EntryOutcome) : Except QueryError (List MetricPoint) :=
  match outcomes.findSome? error? with
  | some e => .error e
  | none => .ok (outcomes.filterMap point?)

theorem collect_cons (o : EntryOutcome) (rest : List EntryOutcome) :
    collect (o :: rest) =
      match o with
      | .point p => (collect rest).map (p :: ·)
      | .failed e => .error e
      | .skipped _ | .absent => collect rest := by
  cases o with
  | point p =>
    simp only [collect, List.findSome?_cons, List.filterMap_cons, error?, point?]
    cases rest.findSome? error? with
    | none => rfl
    | some e => rfl
  | failed e => rfl
  | skipped skip => rfl
  | absent => rfl

/-! ## The walk -/

/-- The outcome that a step of the walk settles. -/
def stepOutcome? : ExtractionStep → Option EntryOutcome
  | .entry o => some o
  | .defaultSkipped _ => none

/-- Steps come to what their outcomes come to. -/
theorem result_runSteps (steps : List ExtractionStep) :
    (runSteps steps).result = collect (steps.filterMap stepOutcome?) := by
  induction steps with
  | nil => rfl
  | cons step rest ih =>
    cases step with
    | defaultSkipped skip => exact ih
    | entry o =>
      -- The first outcome counts before those behind it on both sides.
      rw [List.filterMap_cons]
      refine Eq.trans ?_ (collect_cons o _).symm
      rw [← ih]
      cases o with
      | point p => rfl
      | skipped skip => rfl
      | absent => rfl
      | failed e => rfl

/-- The steps over a row settle the outcomes of its pairs. -/
theorem filterMap_rowSteps (q : Query) (row : Row) (now : Int64) :
    (q.rowSteps row now).filterMap stepOutcome? =
      (q.candidates [row]).map (q.outcome now) := by
  have hNotes (skips : List Skip) :
      (skips.map ExtractionStep.defaultSkipped).filterMap stepOutcome? = [] := by
    simp [stepOutcome?]
  have hEntries (outcomes : List EntryOutcome) :
      (outcomes.map ExtractionStep.entry).filterMap stepOutcome? = outcomes := by
    simp [stepOutcome?, Function.comp_def]
  rw [rowSteps, List.filterMap_append, hNotes, hEntries, rowOutcomes, candidates]
  simp [outcome, Function.comp_def]

/-- The steps over several rows settle the outcomes of their pairs. -/
theorem filterMap_steps (q : Query) (rows : List Row) (now : Int64) :
    (rows.flatMap fun row => q.rowSteps row now).filterMap stepOutcome? =
      (q.candidates rows).map (q.outcome now) := by
  -- On the rows: each row settles its own pairs and no others.
  induction rows with
  | nil => rfl
  | cons row rest ih =>
    rw [List.flatMap_cons, List.filterMap_append, ih, filterMap_rowSteps, candidates,
      candidates, candidates, ← List.map_append, List.flatMap_singleton, List.flatMap_cons]

/-- **An extraction comes to what its pairs come to.** -/
theorem result_extract (q : Query) (rows : List Row) (now : Int64) :
    (q.extract rows now).result = collect ((q.candidates rows).map (q.outcome now)) := by
  rw [extract, result_runSteps, filterMap_steps]

/-- An extraction that succeeds has no pair that fails, and gives the points of all pairs. -/
theorem result_extract_eq_ok_iff {q : Query} {rows : List Row} {now : Int64}
    {points : List MetricPoint} :
    (q.extract rows now).result = .ok points ↔
      (∀ c ∈ q.candidates rows, ∀ e, q.outcome now c ≠ .failed e) ∧
        (q.candidates rows).filterMap (fun c => point? (q.outcome now c)) = points := by
  have hNone := List.findSome?_eq_none_iff (l := q.candidates rows) (p := error? ∘ q.outcome now)
  simp only [Function.comp_apply, error?_eq_none_iff] at hNone
  rw [result_extract, collect, List.findSome?_map, List.filterMap_map, ← hNone]
  cases (q.candidates rows).findSome? (error? ∘ q.outcome now) with
  | none => simp
  | some e => simp

/-- An extraction that fails does so at the first pair that fails, with the error of this pair. -/
theorem result_extract_eq_error_iff {q : Query} {rows : List Row} {now : Int64} {e : QueryError} :
    (q.extract rows now).result = .error e ↔
      ∃ before c after, q.candidates rows = before ++ c :: after ∧
        q.outcome now c = .failed e ∧ ∀ b ∈ before, ∀ e', q.outcome now b ≠ .failed e' := by
  have hFirst := List.findSome?_eq_some_iff (l := q.candidates rows) (f := error? ∘ q.outcome now)
    (b := e)
  simp only [Function.comp_apply, error?_eq_some_iff, error?_eq_none_iff] at hFirst
  rw [result_extract, collect, List.findSome?_map, ← hFirst]
  cases (q.candidates rows).findSome? (error? ∘ q.outcome now) with
  | none => simp
  | some e' => simp

end Query

end SqlMetrics
