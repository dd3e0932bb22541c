import SqlMetrics.Log
import SqlMetrics.Proofs.Query.Extraction
import SqlMetrics.Proofs.Template.Placeholders

/-!
# What an extraction notes

An extraction passes over the templates that do not expand and makes a note about each of them.
This module accounts for all that an extraction meets: which notes it makes and in which order, and
what becomes of every pair that it reaches.

- **Notes**: `Query.notes` lists those about whole rows, and `Query.Tells` says what the log tells
  about a template.
- **Accounts**: `Query.Accounts` goes through pairs one after another, each of which brings a point,
  a note or nothing.
- **Stops**: a `Query.Stop` is a pair with all that comes before it.
- **The course**: `every_pair_accounted_for` says which pairs an extraction goes through and what it
  has noted by then.
-/

namespace SqlMetrics

/-! ## Reasons -/

namespace Template

/-- What is said about a column that a placeholder cannot be replaced by. -/
inductive Explains (row : Row) (column : String) : String → Prop
  | missing : row.get? column = none →
      Explains row column (Text.quoted column ++ " not exists in columns")
  | null : row.get? column = some .null →
      Explains row column (Text.quoted column ++ " value is null")
  | blank {s : String} : row.get? column = some (.text s) →
      (∀ c ∈ s.toList, Text.isBlank c = true) →
      Explains row column (Text.quoted column ++ " is empty")

/-- An error names the column that cannot be spliced in, and its text says why. -/
theorem Refuses.explains {row : Row} {column : String} {e : TemplateError}
    (h : Refuses row column e) : e.column = column ∧ Explains row column e.message := by
  cases h with
  | missing hColumn => exact ⟨rfl, .missing hColumn⟩
  | null hColumn => exact ⟨rfl, .null hColumn⟩
  | blank hColumn hBlank => exact ⟨rfl, .blank hColumn hBlank⟩

end Template

namespace Query

/-! ## Notes -/

/-- The note about a template on a row: there is one where the template does not expand. -/
def note? (q : Query) (row : Row) (template : String) : Option Skip :=
  match Template.expand template row with
  | .ok _ => none
  | .error e => some ⟨e, template, q.sql⟩

/-- The notes about the default templates on a row. -/
def defaultNotes (q : Query) (row : Row) : List SkipEvent :=
  q.defaultValue.toList.filterMap fun entry => (q.note? row entry.1).map .defaultValue

/-- The notes about the key templates of some entries on a row. -/
def keyNotes (q : Query) (row : Row) (entries : List (String × String)) : List SkipEvent :=
  entries.filterMap fun entry => (q.note? row entry.1).map .valueKey

/-- The notes about whole rows: for each row those about the defaults, then those about the keys. -/
def notes (q : Query) (rows : List Row) : List SkipEvent :=
  rows.flatMap fun row => q.defaultNotes row ++ q.keyNotes row q.valueKey.toList

/-- What the log tells about a template that does not expand on a row. -/
structure Tells (q : Query) (row : Row) (template message : String) (entry : Log.Entry) : Prop where
  message_eq : entry.message = message
  /-- The column is that of the leftmost placeholder that cannot be replaced, and the error says
  why it cannot. -/
  fields_eq : ∃ p name text, Template.OccursAt template.toList p name ∧
    (∀ k other, k < p → Template.OccursAt template.toList k other →
      Template.IsVisible row (String.ofList other)) ∧
    Template.Explains row (String.ofList name) text ∧
    entry.fields = [("error", .text text), ("column", .text (String.ofList name)),
      ("template", .text template), ("sql", .text q.sql)]

theorem note?_eq_some_iff {q : Query} {row : Row} {template : String} {skip : Skip} :
    q.note? row template = some skip ↔
      ∃ e, Template.expand template row = .error e ∧ skip = ⟨e, template, q.sql⟩ := by
  rw [note?]
  cases Template.expand template row with
  | ok key => simp
  | error e => simp [eq_comm]

theorem note?_eq_none_iff {q : Query} {row : Row} {template : String} :
    q.note? row template = none ↔ ∃ key, Template.expand template row = .ok key := by
  rw [note?]
  cases Template.expand template row with
  | ok key => simp
  | error e => simp

/-- The log tells of the note about a template all that there is to tell about the template. -/
theorem tells_skipEntry {q : Query} {row : Row} {template : String} {skip : Skip}
    (h : q.note? row template = some skip) (message : String) :
    q.Tells row template message (Log.skipEntry message skip) := by
  obtain ⟨e, hExpand, rfl⟩ := note?_eq_some_iff.mp h
  -- The error is that of the leftmost placeholder that cannot be replaced, and it names its column.
  obtain ⟨p, name, hOccurs, hRefuses, hLeft⟩ := Template.expand_eq_error_iff.mp hExpand
  obtain ⟨hColumn, hExplains⟩ := hRefuses.explains
  refine ⟨rfl, p, name, e.message, hOccurs, hLeft, hExplains, ?_⟩
  rw [← hColumn]
  rfl

/-- The skip of a note about a key template. -/
def keySkip? : SkipEvent → Option Skip
  | .valueKey skip => some skip
  | .defaultValue _ => none

theorem filterMap_keySkip?_keyNotes (q : Query) (row : Row) (entries : List (String × String)) :
    (q.keyNotes row entries).filterMap keySkip? =
      entries.filterMap fun entry => q.note? row entry.1 := by
  rw [keyNotes, List.filterMap_filterMap]
  apply List.filterMap_congr
  intro entry _
  cases q.note? row entry.1 with
  | none => rfl
  | some skip => rfl

theorem filterMap_keySkip?_defaultNotes (q : Query) (row : Row) :
    (q.defaultNotes row).filterMap keySkip? = [] := by
  rw [List.filterMap_eq_nil_iff]
  intro event hMem
  obtain ⟨entry, -, hNote⟩ := List.mem_filterMap.mp hMem
  obtain ⟨skip, -, rfl⟩ := Option.map_eq_some_iff.mp hNote
  rfl

/-! ## Accounts -/

/-- What can come of a pair is what comes of it. -/
theorem settles_iff {q : Query} {now : Int64} {c : Candidate} {o : EntryOutcome} :
    q.Settles now c o ↔ q.outcome now c = o := by
  constructor
  · intro hSettles
    -- What a pair settles as holds all that the walk looks at on the way to its outcome.
    rw [outcome, entryOutcome]
    cases hSettles with
    | skipped hExpand => simp only [hExpand]
    | columnMissing hExpand hColumn => simp only [hExpand, hColumn]
    | absent hExpand hColumn hDefault =>
      have hValue := pointValue?_eq_none_iff.mpr ⟨rfl, hDefault⟩
      simp only [hExpand, hColumn, hValue]
    | timeFails hExpand hColumn hAvailable hTime =>
      obtain ⟨m, hValue⟩ := pointValue?_isSome_iff.mpr hAvailable
      simp only [hExpand, hColumn, hValue, hTime]
    | point hExpand hColumn hValue hTime => simp only [hExpand, hColumn, hValue, hTime]
  · rintro rfl
    exact settles_outcome q now c

/-- The account of pairs that are gone through one after another, with the points, the notes and the
number of those that bring neither.  A pair that fails has no place in it. -/
inductive Accounts (q : Query) (now : Int64) :
    List Candidate → List MetricPoint → List Skip → Nat → Prop
  | nil : Accounts q now [] [] [] 0
  | point {c : Candidate} {p : MetricPoint} {pairs : List Candidate} {points : List MetricPoint}
      {skips : List Skip} {silent : Nat} : q.Settles now c (.point p) →
      Accounts q now pairs points skips silent →
      Accounts q now (c :: pairs) (p :: points) skips silent
  | skipped {c : Candidate} {skip : Skip} {pairs : List Candidate} {points : List MetricPoint}
      {skips : List Skip} {silent : Nat} : q.Settles now c (.skipped skip) →
      Accounts q now pairs points skips silent →
      Accounts q now (c :: pairs) points (skip :: skips) silent
  | absent {c : Candidate} {pairs : List Candidate} {points : List MetricPoint}
      {skips : List Skip} {silent : Nat} : q.Settles now c .absent →
      Accounts q now pairs points skips silent →
      Accounts q now (c :: pairs) points skips (silent + 1)

/-- No pair is lost and none is counted twice. -/
theorem Accounts.total {q : Query} {now : Int64} {pairs : List Candidate}
    {points : List MetricPoint} {skips : List Skip} {silent : Nat}
    (h : q.Accounts now pairs points skips silent) :
    points.length + skips.length + silent = pairs.length := by
  induction h with
  | nil => rfl
  | point _ _ ih =>
    rw [List.length_cons, List.length_cons]
    omega
  | skipped _ _ ih =>
    rw [List.length_cons, List.length_cons]
    omega
  | absent _ _ ih =>
    rw [List.length_cons]
    omega

/-- The skip that an outcome is. -/
def skip? : EntryOutcome → Option Skip
  | .skipped skip => some skip
  | _ => none

theorem note?_of_settles {q : Query} {now : Int64} {c : Candidate} {o : EntryOutcome}
    (h : q.Settles now c o) :
    q.note? c.row c.template = skip? o := by
  cases h with
  | skipped hExpand => simp [note?, skip?, hExpand]
  | columnMissing hExpand => simp [note?, skip?, hExpand]
  | absent hExpand => simp [note?, skip?, hExpand]
  | timeFails hExpand => simp [note?, skip?, hExpand]
  | point hExpand => simp [note?, skip?, hExpand]

/-- Pairs of which none fails have an account. -/
theorem exists_accounts {q : Query} {now : Int64} {pairs : List Candidate}
    (h : ∀ c ∈ pairs, ∀ e, q.outcome now c ≠ .failed e) :
    ∃ silent, q.Accounts now pairs (pairs.filterMap fun c => point? (q.outcome now c))
      (pairs.filterMap fun c => q.note? c.row c.template) silent := by
  -- On the pairs: the first one adds what its own outcome is to the account of the rest.
  induction pairs with
  | nil => exact ⟨0, .nil⟩
  | cons c pairs ih =>
    obtain ⟨silent, hRest⟩ := ih fun b hMem => h b (List.mem_cons_of_mem c hMem)
    have hSettles := q.settles_outcome now c
    have hNote := note?_of_settles hSettles
    rw [List.filterMap_cons, List.filterMap_cons, hNote]
    cases hOutcome : q.outcome now c with
    | point p => exact ⟨silent, .point (hOutcome ▸ hSettles) hRest⟩
    | skipped skip => exact ⟨silent, .skipped (hOutcome ▸ hSettles) hRest⟩
    | absent => exact ⟨silent + 1, .absent (hOutcome ▸ hSettles) hRest⟩
    | failed e => exact absurd hOutcome (h c List.mem_cons_self e)

/-! ## Pairs and their steps -/

theorem length_candidates (q : Query) (rows : List Row) :
    (q.candidates rows).length = rows.length * q.valueKey.toList.length := by
  simp [candidates, List.length_flatMap]

theorem filterMap_note?_candidates (q : Query) (rows : List Row) :
    (q.candidates rows).filterMap (fun c => q.note? c.row c.template) =
      (q.notes rows).filterMap keySkip? := by
  -- On the rows: of the notes about a row, those about the defaults belong to no pair.
  induction rows with
  | nil => rfl
  | cons row rest ih =>
    rw [candidates_cons, List.filterMap_append, ih, notes, notes, List.flatMap_cons,
      List.filterMap_append, List.filterMap_append, filterMap_keySkip?_defaultNotes,
      filterMap_keySkip?_keyNotes, List.nil_append, candidates, List.flatMap_singleton,
      List.filterMap_map]
    rfl

/-- The note that a step of the walk makes. -/
def stepNote? : ExtractionStep → Option SkipEvent
  | .defaultSkipped skip => some (.defaultValue skip)
  | .entry o => (skip? o).map .valueKey

/-- Steps of which none fails are all gone through, with their notes in order. -/
theorem skips_runSteps_append {steps : List ExtractionStep} (h : ∀ e, .entry (.failed e) ∉ steps)
    (rest : List ExtractionStep) :
    (runSteps (steps ++ rest)).skips = steps.filterMap stepNote? ++ (runSteps rest).skips := by
  -- On the steps: only a pair that fails would keep the walk from the steps behind it.
  induction steps with
  | nil => rfl
  | cons step steps ih =>
    have hRest := ih fun e hMem => h e (List.mem_cons_of_mem step hMem)
    cases step with
    | defaultSkipped skip => exact congrArg (SkipEvent.defaultValue skip :: ·) hRest
    | entry o =>
      cases o with
      | point p => exact hRest
      | skipped skip => exact congrArg (SkipEvent.valueKey skip :: ·) hRest
      | absent => exact hRest
      | failed e => exact absurd List.mem_cons_self (h e)

/-- The steps over a row up to some entry. -/
def stepsOver (q : Query) (row : Row) (now : Int64) (entries : List (String × String)) :
    List ExtractionStep :=
  (q.defaultSkips row).map .defaultSkipped ++
    entries.map fun entry => .entry (q.outcome now ⟨row, entry.1, entry.2⟩)

theorem rowSteps_eq (q : Query) (row : Row) (now : Int64) :
    q.rowSteps row now = q.stepsOver row now q.valueKey.toList := by
  simp [rowSteps, rowOutcomes, stepsOver, outcome, Function.comp_def]

theorem filterMap_stepNote?_stepsOver (q : Query) (row : Row) (now : Int64)
    (entries : List (String × String)) :
    (q.stepsOver row now entries).filterMap stepNote? =
      q.defaultNotes row ++ q.keyNotes row entries := by
  rw [stepsOver, List.filterMap_append, List.filterMap_map, List.filterMap_map]
  congr 1
  -- The defaults, whose templates are expanded beforehand; then the pairs.
  · rw [defaultSkips, expandedDefaults, List.filterMap_map, List.filterMap_filterMap]
    apply List.filterMap_congr
    intro entry _
    simp only [Function.comp_apply, note?]
    cases Template.expand entry.1 row with
    | ok key => rfl
    | error e => rfl
  · apply List.filterMap_congr
    intro entry _
    rw [note?_of_settles (q.settles_outcome now ⟨row, entry.1, entry.2⟩)]
    rfl

theorem filterMap_stepNote?_steps (q : Query) (rows : List Row) (now : Int64) :
    (rows.flatMap fun row => q.rowSteps row now).filterMap stepNote? = q.notes rows := by
  rw [List.filterMap_flatMap, notes]
  apply List.flatMap_congr
  intro row _
  rw [rowSteps_eq, filterMap_stepNote?_stepsOver]

theorem failed_mem_stepsOver_iff {q : Query} {row : Row} {now : Int64}
    {entries : List (String × String)} {e : QueryError} :
    .entry (.failed e) ∈ q.stepsOver row now entries ↔
      ∃ entry ∈ entries, q.outcome now ⟨row, entry.1, entry.2⟩ = .failed e := by
  simp [stepsOver]

theorem entry_mem_iff {steps : List ExtractionStep} {o : EntryOutcome} :
    .entry o ∈ steps ↔ o ∈ steps.filterMap stepOutcome? := by
  rw [List.mem_filterMap]
  constructor
  · intro hMem
    exact ⟨.entry o, hMem, rfl⟩
  · rintro ⟨step, hMem, hOutcome⟩
    cases step with
    | defaultSkipped skip => cases hOutcome
    | entry o' =>
      cases hOutcome
      exact hMem

theorem failed_mem_steps_iff {q : Query} {rows : List Row} {now : Int64} {e : QueryError} :
    .entry (.failed e) ∈ rows.flatMap (fun row => q.rowSteps row now) ↔
      ∃ c ∈ q.candidates rows, q.outcome now c = .failed e := by
  rw [entry_mem_iff, filterMap_steps, List.mem_map]

/-! ## Stops -/

/-- A pair of a row and an entry, with the rows and the entries before and after it. -/
structure Stop (q : Query) (rows : List Row) where
  rowsBefore : List Row
  row : Row
  rowsAfter : List Row
  entriesBefore : List (String × String)
  entry : String × String
  entriesAfter : List (String × String)
  rows_eq : rows = rowsBefore ++ row :: rowsAfter
  entries_eq : q.valueKey.toList = entriesBefore ++ entry :: entriesAfter

namespace Stop

variable {q : Query} {rows : List Row}

/-- The pair itself. -/
def pair (s : Stop q rows) : Candidate :=
  ⟨s.row, s.entry.1, s.entry.2⟩

/-- The pairs before it: all those of the rows before, and those of its row with the entries
before. -/
def before (s : Stop q rows) : List Candidate :=
  q.candidates s.rowsBefore ++ s.entriesBefore.map fun entry => ⟨s.row, entry.1, entry.2⟩

/-- The notes about what comes before it: on its own row all defaults come before, but of the keys
only some do. -/
def notes (s : Stop q rows) : List SkipEvent :=
  q.notes s.rowsBefore ++ (q.defaultNotes s.row ++ q.keyNotes s.row s.entriesBefore)

theorem length_before (s : Stop q rows) :
    s.before.length =
      s.rowsBefore.length * q.valueKey.toList.length + s.entriesBefore.length := by
  rw [before, List.length_append, length_candidates, List.length_map]

theorem filterMap_note?_before (s : Stop q rows) :
    s.before.filterMap (fun c => q.note? c.row c.template) = s.notes.filterMap keySkip? := by
  rw [before, notes, List.filterMap_append, List.filterMap_append, List.filterMap_append,
    filterMap_note?_candidates, filterMap_keySkip?_defaultNotes, filterMap_keySkip?_keyNotes,
    List.nil_append, List.filterMap_map]
  rfl

/-- An element that splits two lists one after another stands in the second or in the first. -/
theorem split_append {α : Type} {first second before after : List α} {a : α}
    (h : first ++ second = before ++ a :: after) :
    (∃ more, before = first ++ more ∧ second = more ++ a :: after) ∨
      ∃ more, first = before ++ a :: more := by
  rcases List.append_eq_append_iff.mp h with ⟨more, hBefore, hSecond⟩ | ⟨within, hFirst, hRest⟩
  · exact .inl ⟨more, hBefore, hSecond⟩
  · cases within with
    | nil => exact .inl ⟨[], by simpa using hFirst.symm, hRest.symm⟩
    | cons b more =>
      obtain ⟨rfl, -⟩ := List.cons.inj hRest
      exact .inr ⟨more, hFirst⟩

/-- Each pair of an extraction is a stop. -/
theorem exists_of_split {before after : List Candidate} {c : Candidate}
    (h : q.candidates rows = before ++ c :: after) :
    ∃ s : Stop q rows, s.pair = c ∧ s.before = before := by
  induction rows generalizing before with
  | nil => simp [candidates] at h
  | cons row rest ih =>
    rw [candidates_cons, candidates, List.flatMap_singleton] at h
    -- The pair is one of the first row, or it is one of the rest.
    rcases split_append h with ⟨more, rfl, hRest⟩ | ⟨more, hRow⟩
    · obtain ⟨s, rfl, rfl⟩ := ih hRest
      refine ⟨{ s with
        rowsBefore := row :: s.rowsBefore
        rows_eq := congrArg (row :: ·) s.rows_eq }, rfl, ?_⟩
      simp [Stop.before, candidates]
    · obtain ⟨entriesBefore, entriesRest, hEntries, rfl, hLater⟩ := List.map_eq_append_iff.mp hRow
      obtain ⟨entry, entriesAfter, rfl, rfl, -⟩ := List.map_eq_cons_iff.mp hLater
      exact ⟨⟨[], row, rest, entriesBefore, entry, entriesAfter, rfl, hEntries⟩, rfl, rfl⟩

/-- An extraction that fails at a pair has noted what comes before it and nothing else. -/
theorem skips_extract {now : Int64} {e : QueryError} (s : Stop q rows)
    (hFails : q.outcome now s.pair = .failed e)
    (hBefore : ∀ b ∈ s.before, ∀ e', q.outcome now b ≠ .failed e') :
    (q.extract rows now).skips = s.notes := by
  have hRow : q.rowSteps s.row now = q.stepsOver s.row now s.entriesBefore ++
      .entry (.failed e) ::
        s.entriesAfter.map fun entry => .entry (q.outcome now ⟨s.row, entry.1, entry.2⟩) := by
    rw [pair] at hFails
    rw [rowSteps_eq, stepsOver, s.entries_eq, List.map_append, List.map_cons, hFails, stepsOver,
      List.append_assoc]
  -- No step before that of the pair fails, neither on the rows before nor on its own.
  have hRows : ∀ e', .entry (.failed e') ∉
      s.rowsBefore.flatMap fun row => q.rowSteps row now := by
    intro e' hMem
    obtain ⟨c, hIn, hOutcome⟩ := failed_mem_steps_iff.mp hMem
    exact hBefore c (List.mem_append_left _ hIn) e' hOutcome
  have hEntries : ∀ e', .entry (.failed e') ∉ q.stepsOver s.row now s.entriesBefore := by
    intro e' hMem
    obtain ⟨entry, hIn, hOutcome⟩ := failed_mem_stepsOver_iff.mp hMem
    exact hBefore _ (List.mem_append_right _ (List.mem_map_of_mem hIn)) e' hOutcome
  -- The walk goes through the rows before, then through its row up to the pair, and ends there.
  refine Eq.trans (congrArg (fun rows => (q.extract rows now).skips) s.rows_eq) ?_
  rw [extract, List.flatMap_append, List.flatMap_cons, skips_runSteps_append hRows, hRow,
    List.append_assoc, skips_runSteps_append hEntries, filterMap_stepNote?_steps,
    filterMap_stepNote?_stepsOver, notes]
  simp [runSteps]

end Stop

/-! ## The course -/

/-- An extraction that succeeds has noted all that there is to note. -/
theorem skips_extract_of_ok {q : Query} {rows : List Row} {now : Int64}
    (h : ∀ c ∈ q.candidates rows, ∀ e, q.outcome now c ≠ .failed e) :
    (q.extract rows now).skips = q.notes rows := by
  have hSteps : ∀ e, .entry (.failed e) ∉ rows.flatMap fun row => q.rowSteps row now := by
    intro e hMem
    obtain ⟨c, hIn, hOutcome⟩ := failed_mem_steps_iff.mp hMem
    exact h c hIn e hOutcome
  have hAll := skips_runSteps_append hSteps []
  rw [List.append_nil, filterMap_stepNote?_steps] at hAll
  rw [extract, hAll]
  simp [runSteps]

/-- **Every pair is accounted for**, and so is every note.
1. Of each pair there comes exactly one thing.
2. When an extraction succeeds, it has gone through all pairs.  Each of them has brought a point, a
   note about a key, or nothing, and these are as many as there are pairs.  The notes are those
   about all rows.
3. When it fails, it has gone through the pairs before one of them, which has failed with the error.
   The notes are those about what comes before this pair.
4. The templates that the notes are about follow one another in the order of their bytes.
5. There is a note about a template exactly where it does not expand, and the log tells its
   template, the statement of the query, and what is wrong with the leftmost placeholder that cannot
   be replaced. -/
theorem every_pair_accounted_for (q : Query) (rows : List Row) (now : Int64) :
    (∀ c, ∃! o, q.Settles now c o) ∧
    (∀ points, (q.extract rows now).result = .ok points →
      (q.extract rows now).skips = q.notes rows ∧
      ∃ silent,
        q.Accounts now (q.candidates rows) points
          ((q.extract rows now).skips.filterMap keySkip?) silent ∧
        points.length + ((q.extract rows now).skips.filterMap keySkip?).length + silent =
          rows.length * q.valueKey.toList.length) ∧
    (∀ e, (q.extract rows now).result = .error e →
      ∃ s : Stop q rows, q.Settles now s.pair (.failed e) ∧
        (q.extract rows now).skips = s.notes ∧
        ∃ points silent,
          q.Accounts now s.before points ((q.extract rows now).skips.filterMap keySkip?) silent ∧
          points.length + ((q.extract rows now).skips.filterMap keySkip?).length + silent =
            s.rowsBefore.length * q.valueKey.toList.length + s.entriesBefore.length) ∧
    ((q.defaultValue.toList.Pairwise fun a b => Text.encode a.1 < Text.encode b.1) ∧
      q.valueKey.toList.Pairwise fun a b => Text.encode a.1 < Text.encode b.1) ∧
    ∀ row template,
      (q.note? row template = none ↔ ∃ key, Template.expand template row = .ok key) ∧
      ∀ skip, q.note? row template = some skip →
        q.Tells row template "skipping default value" (Log.ofSkip (.defaultValue skip)) ∧
        q.Tells row template "skipping value key" (Log.ofSkip (.valueKey skip)) := by
  refine ⟨?one, ?succeeds, ?fails, ⟨bytes_ascending _, bytes_ascending _⟩, ?tells⟩
  case one =>
    intro c
    refine ⟨q.outcome now c, q.settles_outcome now c, fun o hSettles => ?_⟩
    exact (settles_iff.mp hSettles).symm
  case succeeds =>
    intro points hResult
    obtain ⟨hNone, rfl⟩ := result_extract_eq_ok_iff.mp hResult
    have hSkips := skips_extract_of_ok hNone
    obtain ⟨silent, hAccounts⟩ := exists_accounts hNone
    rw [filterMap_note?_candidates, ← hSkips] at hAccounts
    refine ⟨hSkips, silent, hAccounts, ?_⟩
    rw [hAccounts.total, length_candidates]
  case fails =>
    intro e hResult
    obtain ⟨before, c, after, hSplit, hFails, hBefore⟩ := result_extract_eq_error_iff.mp hResult
    obtain ⟨s, rfl, rfl⟩ := Stop.exists_of_split hSplit
    have hSkips := s.skips_extract hFails hBefore
    obtain ⟨silent, hAccounts⟩ := exists_accounts hBefore
    rw [s.filterMap_note?_before, ← hSkips] at hAccounts
    refine ⟨s, settles_iff.mpr hFails, hSkips, _, silent, hAccounts, ?_⟩
    rw [hAccounts.total, s.length_before]
  case tells =>
    intro row template
    refine ⟨note?_eq_none_iff, fun skip hNote => ?_⟩
    exact ⟨tells_skipEntry hNote _, tells_skipEntry hNote _⟩

/-- Two rows of which the second one lacks a column: the extraction of the first row alone has a
note about a default and three pairs that bring a note, nothing and a point; that of both ends
within the second row, before which nothing more is noted. -/
theorem every_pair_accounted_for_within_row :
    let q : Query :=
      { sql := "select 1"
        valueKey := KeyMap.ofList [("a.#\x7bhost\x7d", "n"), ("b", "n"), ("c", "m")]
        defaultValue := KeyMap.ofList [("b.#\x7bhost\x7d", ⟨0⟩)] }
    let poor : Row := KeyMap.ofList [("m", .int 1), ("n", .null)]
    let other : Row := KeyMap.ofList [("host", .text "web"), ("n", .int 3)]
    let noted : List SkipEvent := [
      .defaultValue ⟨.columnNotFound "host", "b.#\x7bhost\x7d", "select 1"⟩,
      .valueKey ⟨.columnNotFound "host", "a.#\x7bhost\x7d", "select 1"⟩]
    ((q.extract [poor] 7).result = .ok [⟨"c", 7, .int 1⟩] ∧ (q.extract [poor] 7).skips = noted ∧
      ∃ silent, 1 + 1 + silent = 1 * 3) ∧
    (q.extract [poor, other] 7).result = .error (.columnNotFound "m") ∧
      ∃ s : Stop q [poor, other], q.Settles 7 s.pair (.failed (.columnNotFound "m")) ∧
        s.notes = noted := by
  intro q poor other noted
  have hOk : (q.extract [poor] 7).result = .ok [⟨"c", 7, .int 1⟩] := by cbv
  have hNoted : (q.extract [poor] 7).skips = noted := by cbv
  have hError : (q.extract [poor, other] 7).result = .error (.columnNotFound "m") := by cbv
  have hBoth : (q.extract [poor, other] 7).skips = noted := by cbv
  obtain ⟨-, hSucceeds, -⟩ := every_pair_accounted_for q [poor] 7
  obtain ⟨-, silent, -, hTotal⟩ := hSucceeds _ hOk
  obtain ⟨-, -, hFails, -⟩ := every_pair_accounted_for q [poor, other] 7
  obtain ⟨s, hSettles, hNotes, -⟩ := hFails _ hError
  rw [hNoted] at hTotal
  refine ⟨⟨hOk, hNoted, silent, hTotal⟩, hError, s, hSettles, ?_⟩
  rw [← hNotes, hBoth]

end Query

end SqlMetrics
