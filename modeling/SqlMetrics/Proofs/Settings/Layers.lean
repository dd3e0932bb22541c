import SqlMetrics.Settings

/-!
# Layers of settings

Settings are overridden by layers, such as the environment and the command line.  A layer speaks for
a setting if it gives a value that is not blank; what it says is taken, and otherwise the setting
keeps its value.

- **Layers**: `Overrides.andThen` puts one layer over another.
- **Checks**: `validate_eq_ok_iff` says which settings are good, and `validate_merge_eq_error_iff`
  what a layer can make of good settings.
- **Action**: `layers_act` states that the layers act on the settings.
-/

namespace SqlMetrics

/-! ## What is given -/

/-- A value that is set and not blank. -/
def given {α : Type} [DecidableEq α] (blank : α) : Option α → Option α
  | some a => if a = blank then none else some a
  | none => none

section Given

variable {α : Type} [DecidableEq α] {blank : α}

@[simp] theorem given_none : given blank none = none := rfl

theorem given_eq_some_iff {value : Option α} {a : α} :
    given blank value = some a ↔ value = some a ∧ a ≠ blank := by
  cases value with
  | none => simp
  | some b =>
    by_cases hBlank : b = blank
    · simp only [given, if_pos hBlank]
      grind
    · simp only [given, if_neg hBlank]
      grind

/-- Of two values, one over the other, that is given which is not blank. -/
theorem given_given_or (upper lower : Option α) :
    given blank ((given blank upper).or lower) = (given blank upper).or (given blank lower) := by
  cases hUpper : given blank upper with
  | none => simp
  | some a =>
    rw [Option.some_or, Option.some_or, given_eq_some_iff]
    exact ⟨rfl, (given_eq_some_iff.mp hUpper).2⟩

/-- To take what is given of one value and then of another is to take what is given of both. -/
theorem getD_given_getD_given (upper lower : Option α) (old : α) :
    (given blank upper).getD ((given blank lower).getD old) =
      (given blank ((given blank upper).or lower)).getD old := by
  rw [given_given_or, Option.getD_or]

end Given

theorem overrideText_eq (old : String) (new : Option String) :
    overrideText old new = (given "" new).getD old := by
  cases new with
  | none => rfl
  | some text => by_cases hBlank : text = "" <;> simp [overrideText, given, hBlank]

theorem overrideLimit_eq (old : Nat) (new : Option Nat) :
    overrideLimit old new = (given 0 new).getD old := by
  cases new with
  | none => rfl
  | some limit => by_cases hZero : limit = 0 <;> simp [overrideLimit, given, hZero]

/-! ## Settings one by one -/

/-- The settings that are text. -/
inductive TextSetting where
  | dsn
  | defaultService
  | queryFile
  | mackerelApiKey
  | mackerelApiBase
  | exporter
  | logFormat
  | logLevel
deriving DecidableEq

/-- The value of a setting that is text. -/
def Settings.text (s : Settings) : TextSetting → String
  | .dsn => s.dsn
  | .defaultService => s.defaultService
  | .queryFile => s.queryFile
  | .mackerelApiKey => s.mackerelApiKey
  | .mackerelApiBase => s.mackerelApiBase
  | .exporter => s.exporter
  | .logFormat => s.logFormat
  | .logLevel => s.logLevel

namespace Overrides

/-- What a layer sets a setting that is text to. -/
def text? (o : Overrides) : TextSetting → Option String
  | .dsn => o.dsn
  | .defaultService => o.defaultService
  | .queryFile => o.queryFile
  | .mackerelApiKey => o.mackerelApiKey
  | .mackerelApiBase => o.mackerelApiBase
  | .exporter => o.exporter
  | .logFormat => o.logFormat
  | .logLevel => o.logLevel

/-- One layer with another one over it: what the upper one gives, and else what the lower one
sets. -/
def andThen (lower upper : Overrides) : Overrides where
  dsn := (given "" upper.dsn).or lower.dsn
  defaultService := (given "" upper.defaultService).or lower.defaultService
  maxConcurrency := (given 0 upper.maxConcurrency).or lower.maxConcurrency
  queryFile := (given "" upper.queryFile).or lower.queryFile
  mackerelApiKey := (given "" upper.mackerelApiKey).or lower.mackerelApiKey
  mackerelApiBase := (given "" upper.mackerelApiBase).or lower.mackerelApiBase
  exporter := (given "" upper.exporter).or lower.exporter
  logFormat := (given "" upper.logFormat).or lower.logFormat
  logLevel := (given "" upper.logLevel).or lower.logLevel

variable {o o' : Overrides}

/-- Two layers are the same if they set every setting alike. -/
theorem eq_of_text? (hText : ∀ setting, o.text? setting = o'.text? setting)
    (hLimit : o.maxConcurrency = o'.maxConcurrency) : o = o' := by
  obtain ⟨⟩ := o
  obtain ⟨⟩ := o'
  simp only [mk.injEq]
  exact ⟨hText .dsn, hText .defaultService, hLimit, hText .queryFile, hText .mackerelApiKey,
    hText .mackerelApiBase, hText .exporter, hText .logFormat, hText .logLevel⟩

theorem text?_andThen (lower upper : Overrides) (setting : TextSetting) :
    (lower.andThen upper).text? setting = (given "" (upper.text? setting)).or
      (lower.text? setting) := by
  cases setting <;> rfl

@[simp] theorem text?_empty (setting : TextSetting) : ({} : Overrides).text? setting = none := by
  cases setting <;> rfl

/-- It does not matter which of three layers are put together first. -/
theorem andThen_assoc (a b c : Overrides) :
    (a.andThen b).andThen c = a.andThen (b.andThen c) := by
  refine eq_of_text? (fun setting => ?_) ?_
  · simp only [text?_andThen, given_given_or, Option.or_assoc]
  · simp only [andThen, given_given_or, Option.or_assoc]

end Overrides

namespace Settings

variable {s s' : Settings} {o : Overrides}

/-- Settings are the same if each one is. -/
theorem eq_of_text (hText : ∀ setting, s.text setting = s'.text setting)
    (hLimit : s.maxConcurrency = s'.maxConcurrency) : s = s' := by
  obtain ⟨⟩ := s
  obtain ⟨⟩ := s'
  simp only [mk.injEq]
  exact ⟨hText .dsn, hText .defaultService, hLimit, hText .queryFile, hText .mackerelApiKey,
    hText .mackerelApiBase, hText .exporter, hText .logFormat, hText .logLevel⟩

/-- A setting that is text is what the layer gives for it, and else what it was. -/
theorem text_merge (s : Settings) (o : Overrides) (setting : TextSetting) :
    (s.merge o).text setting = (given "" (o.text? setting)).getD (s.text setting) := by
  cases setting <;> exact overrideText_eq _ _

/-- The limit is what the layer gives for it, and else what it was. -/
theorem maxConcurrency_merge (s : Settings) (o : Overrides) :
    (s.merge o).maxConcurrency = (given 0 o.maxConcurrency).getD s.maxConcurrency :=
  overrideLimit_eq _ _

/-- To merge one layer after another is to merge both at once. -/
theorem merge_merge (s : Settings) (lower upper : Overrides) :
    (s.merge lower).merge upper = s.merge (lower.andThen upper) := by
  refine eq_of_text (fun setting => ?_) ?_
  · simp only [text_merge, Overrides.text?_andThen, getD_given_getD_given]
  · simp only [maxConcurrency_merge, Overrides.andThen, getD_given_getD_given]

theorem merge_empty (s : Settings) : s.merge {} = s := by
  refine eq_of_text (fun setting => ?_) ?_
  · rw [text_merge, Overrides.text?_empty]
    rfl
  · rw [maxConcurrency_merge]
    rfl

/-- A layer that is merged again changes nothing. -/
theorem merge_merge_self (s : Settings) (o : Overrides) : (s.merge o).merge o = s.merge o := by
  have hTwice {α : Type} (value : Option α) (old : α) :
      value.getD (value.getD old) = value.getD old := by cases value <;> rfl
  refine eq_of_text (fun setting => ?_) ?_
  · simp only [text_merge, hTwice]
  · simp only [maxConcurrency_merge, hTwice]

/-! ## Checks -/

/-- Settings are good if the name of the data source and the limit are not blank, and the format and
the level of the log are known. -/
theorem validate_eq_ok_iff :
    s.validate = .ok () ↔ s.dsn ≠ "" ∧ s.maxConcurrency ≠ 0 ∧ s.logFormat ∈ logFormats ∧
      s.logLevel ∈ logLevels := by
  by_cases hDsn : s.dsn = "" <;> by_cases hLimit : s.maxConcurrency = 0 <;>
    by_cases hFormat : s.logFormat ∈ logFormats <;> by_cases hLevel : s.logLevel ∈ logLevels <;>
      simp [validate, hDsn, hLimit, hFormat, hLevel]

/-- Where a data source and a limit are given, only the log can be at fault, its format first. -/
theorem validate_eq_error_iff (hDsn : s.dsn ≠ "") (hLimit : s.maxConcurrency ≠ 0)
    {e : SettingsError} :
    s.validate = .error e ↔
      (s.logFormat ∉ logFormats ∧ e = .invalid "log-format" s.logFormat) ∨
        (s.logFormat ∈ logFormats ∧ s.logLevel ∉ logLevels ∧
          e = .invalid "log-level" s.logLevel) := by
  rw [eq_comm (a := e), eq_comm (a := e)]
  by_cases hFormat : s.logFormat ∈ logFormats <;> by_cases hLevel : s.logLevel ∈ logLevels <;>
    simp [validate, hDsn, hLimit, hFormat, hLevel]

end Settings

/-- What is wrong with good settings after a layer is merged: the layer names a format of the log
that is not known, or a level. -/
inductive Overrides.Misnames (o : Overrides) : SettingsError → Prop where
  | format {format : String} (hGiven : given "" o.logFormat = some format)
      (hUnknown : format ∉ Settings.logFormats) : o.Misnames (.invalid "log-format" format)
  /-- The level is looked at after the format. -/
  | level {level : String}
      (hFormat : ∀ format, given "" o.logFormat = some format → format ∈ Settings.logFormats)
      (hGiven : given "" o.logLevel = some level) (hUnknown : level ∉ Settings.logLevels) :
      o.Misnames (.invalid "log-level" level)

namespace Settings

variable {s : Settings} {o : Overrides}

/-- Of a value and an older one that is known, the one that counts is unknown just if the value
is. -/
theorem getD_not_mem_iff {known : List String} {value : Option String} {old : String}
    (hOld : old ∈ known) : value.getD old ∉ known ↔ ∃ new, value = some new ∧ new ∉ known := by
  cases value <;> simp [hOld]

/-- **A layer spoils good settings only by what it names.** -/
theorem validate_merge_eq_error_iff (hGood : s.validate = .ok ()) {e : SettingsError} :
    (s.merge o).validate = .error e ↔ o.Misnames e := by
  obtain ⟨hDsn, hLimit, hFormat, hLevel⟩ := validate_eq_ok_iff.mp hGood
  -- What is taken from the layer is not blank, and what is kept was not.
  have hDsn' : (s.merge o).dsn ≠ "" := by
    rw [show (s.merge o).dsn = _ from text_merge s o .dsn]
    cases hGiven : given "" (o.text? .dsn) with
    | none => exact hDsn
    | some new => exact (given_eq_some_iff.mp hGiven).2
  have hLimit' : (s.merge o).maxConcurrency ≠ 0 := by
    rw [maxConcurrency_merge]
    cases hGiven : given 0 o.maxConcurrency with
    | none => exact hLimit
    | some new => exact (given_eq_some_iff.mp hGiven).2
  have hFormats : (s.merge o).logFormat = (given "" o.logFormat).getD s.logFormat :=
    text_merge s o .logFormat
  have hLevels : (s.merge o).logLevel = (given "" o.logLevel).getD s.logLevel :=
    text_merge s o .logLevel
  rw [validate_eq_error_iff hDsn' hLimit', hFormats, hLevels, getD_not_mem_iff hFormat,
    getD_not_mem_iff hLevel]
  constructor
  · rintro (⟨⟨format, hGiven, hUnknown⟩, rfl⟩ | ⟨hKnown, ⟨level, hGiven, hUnknown⟩, rfl⟩)
    · rw [hGiven]
      exact .format hGiven hUnknown
    · rw [hGiven]
      refine .level (fun format hFormat' => ?_) hGiven hUnknown
      rwa [hFormat'] at hKnown
  · rintro (⟨hGiven, hUnknown⟩ | ⟨hKnown, hGiven, hUnknown⟩)
    · exact .inl ⟨⟨_, hGiven, hUnknown⟩, by rw [hGiven]; rfl⟩
    · refine .inr ⟨?_, ⟨_, hGiven, hUnknown⟩, by rw [hGiven]; rfl⟩
      refine Decidable.byContradiction fun hNot => ?_
      obtain ⟨format, hFormat', hOther⟩ := (getD_not_mem_iff hFormat).mp hNot
      exact hOther (hKnown format hFormat')

/-! ## Action -/

/-- **Layers act on settings.**
1. After a layer is merged, each setting is what the layer gives for it, and else what it was; no
   other setting plays a part in it.
2. One layer over another sets each setting to what the upper one gives, and else as the lower
   one does.
3. To merge one layer and then another is to merge the second over the first.  The layer that sets
   nothing changes nothing, and layers are put together in any grouping.
4. A layer that is merged again changes nothing.
5. Good settings are refused after a layer is merged just if the layer itself names a format or a
   level of the log that is not known, and the error is about this name. -/
theorem layers_act (s : Settings) (a b c : Overrides) :
    ((∀ setting, (s.merge a).text setting = (given "" (a.text? setting)).getD (s.text setting)) ∧
      (s.merge a).maxConcurrency = (given 0 a.maxConcurrency).getD s.maxConcurrency) ∧
    ((∀ setting, (a.andThen b).text? setting =
        (given "" (b.text? setting)).or (a.text? setting)) ∧
      (a.andThen b).maxConcurrency = (given 0 b.maxConcurrency).or a.maxConcurrency) ∧
    ((s.merge a).merge b = s.merge (a.andThen b) ∧ s.merge {} = s ∧
      (a.andThen b).andThen c = a.andThen (b.andThen c)) ∧
    (s.merge a).merge a = s.merge a ∧
    (s.validate = .ok () → ∀ e, (s.merge a).validate = .error e ↔ a.Misnames e) :=
  ⟨⟨text_merge s a, maxConcurrency_merge s a⟩, ⟨Overrides.text?_andThen a b, rfl⟩,
    ⟨merge_merge s a b, merge_empty s, Overrides.andThen_assoc a b c⟩, merge_merge_self s a,
    fun hGood _ => validate_merge_eq_error_iff hGood⟩

/-- A layer that names a level without a meaning spoils good settings, though it clears none of
them; a layer over it with a blank level does not mend them. -/
theorem layers_act_unknown_level :
    let s : Settings := { dsn := "sqlite://:memory:" }
    let a : Overrides := { dsn := some "", maxConcurrency := some 0, logLevel := some "loud" }
    let b : Overrides := { logLevel := some "" }
    s.validate = .ok () ∧ (s.merge a).dsn = "sqlite://:memory:" ∧
      (s.merge a).validate = .error (.invalid "log-level" "loud") ∧
      (s.merge a).merge b = s.merge (a.andThen b) := by
  intro s a b
  have hGood : s.validate = .ok () := rfl
  obtain ⟨⟨hText, -⟩, -, ⟨hTwo, -⟩, -, hChecked⟩ := layers_act s a b {}
  refine ⟨hGood, hText .dsn, (hChecked hGood _).mpr (.level ?_ rfl (by decide)), hTwo⟩
  exact nofun

end Settings

end SqlMetrics
