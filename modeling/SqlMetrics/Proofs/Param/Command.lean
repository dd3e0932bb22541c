import SqlMetrics.Param.Evaluation
import SqlMetrics.Proofs.Text.Trim

/-!
# Which parameters are commands

A text that is entirely a command between `$(` and `)` stands for what the command writes, provided
that the command is on one line.  Every other parameter stands for itself.

- **Commands**: `Param.StandsFor` says for which command a parameter stands.
- **Endings**: `Param.Ends` says what the outcome of a command makes of its parameter.
- **Places**: `parameter_in_its_place` says what comes of a parameter wherever it stands in a list.
  A command on two lines is no command there (`not_every_enclosed_text_is_run`).
-/

namespace SqlMetrics.Param

/-! ## Commands -/

/-- A parameter stands for a command: it is a text that consists of the command in parentheses
behind a dollar sign, and the command is on one line.  It may be empty, and it may hold
parentheses. -/
structure StandsFor (p : Param) (c : String) : Prop where
  isText : p = .text ("$(" ++ c ++ ")")
  oneLine : '\n' ∉ c.toList

theorem commandChars?_eq_some_iff {cs c : List Char} :
    commandChars? cs = some c ↔ cs = '$' :: '(' :: (c ++ [')']) ∧ '\n' ∉ c := by
  constructor
  · intro h
    unfold commandChars? at h
    split at h
    case h_1 rest =>
      split at h
      case isTrue hCheck =>
        obtain ⟨hLast, hLine⟩ : rest.getLast? = some ')' ∧ '\n' ∉ rest.dropLast := by
          simpa using hCheck
        -- The last parenthesis is the one that closes the command, whatever stands before it.
        obtain ⟨command, rfl⟩ := List.getLast?_eq_some_iff.mp hLast
        rw [List.dropLast_concat] at h hLine
        obtain rfl := Option.some.inj h
        exact ⟨rfl, hLine⟩
      case isFalse => cases h
    case h_2 => cases h
  · rintro ⟨rfl, hLine⟩
    simp [commandChars?, hLine]

theorem toList_enclosed (c : String) :
    ("$(" ++ c ++ ")").toList = '$' :: '(' :: (c.toList ++ [')']) := by
  simp

/-- The command that is read off a parameter is the one that it stands for. -/
theorem command?_eq_some_iff {p : Param} {c : String} : p.command? = some c ↔ p.StandsFor c := by
  constructor
  · intro h
    cases p with
    | text s =>
      obtain ⟨cs, hChars, rfl⟩ := Option.map_eq_some_iff.mp h
      obtain ⟨hText, hLine⟩ := commandChars?_eq_some_iff.mp hChars
      refine ⟨congrArg text (String.toList_inj.mp ?_), by rwa [String.toList_ofList]⟩
      rw [toList_enclosed, hText, String.toList_ofList]
    | bool | int | float | null => cases h
  · rintro ⟨rfl, hLine⟩
    have hChars := commandChars?_eq_some_iff.mpr ⟨toList_enclosed c, hLine⟩
    rw [command?, hChars, Option.map_some, String.ofList_toList]

theorem command?_eq_none_iff {p : Param} : p.command? = none ↔ ∀ c, ¬ p.StandsFor c := by
  simp only [← command?_eq_some_iff, Option.eq_none_iff_forall_ne_some, ne_eq]

/-- A parameter stands for one command only. -/
theorem StandsFor.unique {p : Param} {c c' : String} (h : p.StandsFor c) (h' : p.StandsFor c') :
    c = c' := by
  rw [← command?_eq_some_iff] at h h'
  exact Option.some.inj (h.symm.trans h')

/-- The commands of parameters, in the order of the parameters. -/
def commandsOf (params : List Param) : List String :=
  params.filterMap command?

theorem append_commandsOf_nil (ran : List String) : ran ++ commandsOf [] = ran :=
  List.append_nil ran

theorem commandsOf_cons_of_standsFor {p : Param} {c : String} (h : p.StandsFor c)
    (params : List Param) : commandsOf (p :: params) = c :: commandsOf params :=
  List.filterMap_cons_some (command?_eq_some_iff.mpr h)

theorem commandsOf_cons_of_not_standsFor {p : Param} (h : ∀ c, ¬ p.StandsFor c)
    (params : List Param) : commandsOf (p :: params) = commandsOf params :=
  List.filterMap_cons_none (command?_eq_none_iff.mpr h)

/-! ## Endings -/

/-- What the outcome of a command makes of its parameter: the trimmed output if the command ends
with the code zero, and otherwise an error with all that is known of the failure. -/
inductive Ends (c : String) : Shell.Outcome → Except CommandError Param → Prop
  | well {stdout stderr : Bytes} {output : String} :
      Text.IsTrim (Text.decodeLossy stdout) output →
      Ends c (.ended (.code 0) stdout stderr) (.ok (.text output))
  | badly {status : Shell.ExitStatus} {stdout stderr : Bytes} {complaint : String} :
      status ≠ .code 0 → Text.IsTrim (Text.decodeLossy stderr) complaint →
      Ends c (.ended status stdout stderr) (.error (.failed c status complaint))
  | notStarted {cause : Shell.StartFailure} :
      Ends c (.notStarted cause) (.error (.notStarted c cause))

theorem success_iff {status : Shell.ExitStatus} : status.success = true ↔ status = .code 0 := by
  cases status with
  | code n => simp [Shell.ExitStatus.success]
  | signal n coreDumped => simp [Shell.ExitStatus.success]

theorem ofOutcome_eq_iff {c : String} {o : Shell.Outcome} {r : Except CommandError Param} :
    ofOutcome c o = r ↔ Ends c o r := by
  constructor
  · rintro rfl
    -- Of the outcomes only the code zero counts as a success; a signal never does.
    cases o with
    | notStarted cause => exact .notStarted
    | ended status stdout stderr =>
      rw [ofOutcome]
      split
      case isTrue hSuccess =>
        obtain rfl := success_iff.mp hSuccess
        exact .well (Text.isTrim_trim _)
      case isFalse hFailure =>
        exact .badly (fun hZero => hFailure (success_iff.mpr hZero)) (Text.isTrim_trim _)
  · intro hEnds
    cases hEnds with
    | well hTrim =>
      obtain rfl := Text.isTrim_iff.mp hTrim
      rfl
    | badly hStatus hTrim =>
      obtain rfl := Text.isTrim_iff.mp hTrim
      rw [ofOutcome, if_neg fun hSuccess => hStatus (success_iff.mp hSuccess)]
    | notStarted => rfl

/-! ## Places -/

section Evaluation

variable {shell : ShellBehaviour} {ran : List String} {values rest : List Param} {p : Param}

theorem evaluateFrom_cons_of_not_standsFor (h : ∀ c, ¬ p.StandsFor c) :
    evaluateFrom shell ran values (p :: rest) = evaluateFrom shell ran (values ++ [p]) rest := by
  rw [evaluateFrom, command?_eq_none_iff.mpr h]

theorem evaluateFrom_cons_of_interrupted {c : String} (h : p.StandsFor c)
    (hShell : shell ran c = none) :
    evaluateFrom shell ran values (p :: rest) = ⟨ran ++ [c], .interrupted⟩ := by
  rw [evaluateFrom, command?_eq_some_iff.mpr h]
  simp only [hShell]

theorem evaluateFrom_cons_of_ok {c : String} {o : Shell.Outcome} {value : Param}
    (h : p.StandsFor c) (hShell : shell ran c = some o) (hEnds : Ends c o (.ok value)) :
    evaluateFrom shell ran values (p :: rest) =
      evaluateFrom shell (ran ++ [c]) (values ++ [value]) rest := by
  rw [evaluateFrom, command?_eq_some_iff.mpr h]
  simp only [hShell, ofOutcome_eq_iff.mpr hEnds]

theorem evaluateFrom_cons_of_error {c : String} {o : Shell.Outcome} {e : CommandError}
    (h : p.StandsFor c) (hShell : shell ran c = some o) (hEnds : Ends c o (.error e)) :
    evaluateFrom shell ran values (p :: rest) = ⟨ran ++ [c], .failed e⟩ := by
  rw [evaluateFrom, command?_eq_some_iff.mpr h]
  simp only [hShell, ofOutcome_eq_iff.mpr hEnds]

/-- What an evaluation can meet at a parameter. -/
inductive Turn (shell : ShellBehaviour) (ran : List String) (p : Param) : Prop
  | kept : (∀ c, ¬ p.StandsFor c) → Turn shell ran p
  | interrupted {c : String} : p.StandsFor c → shell ran c = none → Turn shell ran p
  | failed {c : String} {o : Shell.Outcome} {e : CommandError} : p.StandsFor c →
      shell ran c = some o → Ends c o (.error e) → Turn shell ran p
  | replaced {c : String} {o : Shell.Outcome} {value : Param} : p.StandsFor c →
      shell ran c = some o → Ends c o (.ok value) → Turn shell ran p

theorem exists_turn (shell : ShellBehaviour) (ran : List String) (p : Param) :
    Turn shell ran p := by
  cases hCommand : p.command? with
  | none => exact .kept (command?_eq_none_iff.mp hCommand)
  | some c =>
    have hStands := command?_eq_some_iff.mp hCommand
    cases hShell : shell ran c with
    | none => exact .interrupted hStands hShell
    | some o =>
      cases hOutcome : ofOutcome c o with
      | error e => exact .failed hStands hShell (ofOutcome_eq_iff.mp hOutcome)
      | ok value => exact .replaced hStands hShell (ofOutcome_eq_iff.mp hOutcome)

/-- The commands run so far are never forgotten. -/
theorem ran_prefix_evaluateFrom (shell : ShellBehaviour) (ran : List String)
    (values params : List Param) : ran <+: (evaluateFrom shell ran values params).commands := by
  induction params generalizing ran values with
  | nil => exact List.prefix_rfl
  | cons p rest ih =>
    cases exists_turn shell ran p with
    | kept hOther =>
      rw [evaluateFrom_cons_of_not_standsFor hOther]
      exact ih ran (values ++ [p])
    | @interrupted c hStands hShell =>
      rw [evaluateFrom_cons_of_interrupted hStands hShell]
      exact List.prefix_append ran [c]
    | @failed c o e hStands hShell hEnds =>
      rw [evaluateFrom_cons_of_error hStands hShell hEnds]
      exact List.prefix_append ran [c]
    | @replaced c o value hStands hShell hEnds =>
      rw [evaluateFrom_cons_of_ok hStands hShell hEnds]
      exact (List.prefix_append ran [c]).trans (ih (ran ++ [c]) (values ++ [value]))

/-- An evaluation goes on behind parameters that have their values. -/
theorem evaluateFrom_append_of_values {before : List Param} {ran' : List String}
    {values' : List Param} (h : evaluateFrom shell ran values before = ⟨ran', .values values'⟩) :
    evaluateFrom shell ran values (before ++ rest) = evaluateFrom shell ran' values' rest := by
  induction before generalizing ran values with
  | nil =>
    cases h
    rfl
  | cons p before ih =>
    rw [List.cons_append]
    -- A command that does not end well would have kept the parameters from their values.
    cases exists_turn shell ran p with
    | kept hOther =>
      rw [evaluateFrom_cons_of_not_standsFor hOther] at h ⊢
      exact ih h
    | interrupted hStands hShell =>
      rw [evaluateFrom_cons_of_interrupted hStands hShell] at h
      cases h
    | failed hStands hShell hEnds =>
      rw [evaluateFrom_cons_of_error hStands hShell hEnds] at h
      cases h
    | replaced hStands hShell hEnds =>
      rw [evaluateFrom_cons_of_ok hStands hShell hEnds] at h ⊢
      exact ih h

/-- A command that a parameter stands for is the next one that is run, however it ends. -/
theorem ran_append_prefix_evaluateFrom {c : String} (h : p.StandsFor c) :
    ran ++ [c] <+: (evaluateFrom shell ran values (p :: rest)).commands := by
  cases exists_turn shell ran p with
  | kept hOther => exact absurd h (hOther c)
  | interrupted hStands hShell =>
    obtain rfl := h.unique hStands
    rw [evaluateFrom_cons_of_interrupted h hShell]
  | failed hStands hShell hEnds =>
    obtain rfl := h.unique hStands
    rw [evaluateFrom_cons_of_error h hShell hEnds]
  | replaced hStands hShell hEnds =>
    obtain rfl := h.unique hStands
    rw [evaluateFrom_cons_of_ok h hShell hEnds]
    exact ran_prefix_evaluateFrom shell _ _ rest

end Evaluation

/-- **What comes of a parameter in its place**, when all parameters before it have their values:
1. if it is a text that is entirely `$(...)`, with a command on one line inside, then this command
   is the next one that is run, and if it ends well its trimmed output takes the place of the
   parameter;
2. any other parameter takes its own place, and no command is run for it. -/
theorem parameter_in_its_place (shell : ShellBehaviour) (before after : List Param) (p : Param)
    (ran : List String) (values : List Param)
    (hBefore : evaluate shell before = ⟨ran, .values values⟩) :
    (∀ c : String, p = .text ("$(" ++ c ++ ")") → '\n' ∉ c.toList →
      ran ++ [c] <+: (evaluate shell (before ++ p :: after)).commands ∧
      ∀ stdout stderr, shell ran c = some (.ended (.code 0) stdout stderr) →
        ∃ output, Text.IsTrim (Text.decodeLossy stdout) output ∧
          evaluate shell (before ++ p :: after) =
            evaluateFrom shell (ran ++ [c]) (values ++ [.text output]) after) ∧
    ((∀ c : String, p = .text ("$(" ++ c ++ ")") → '\n' ∈ c.toList) →
      evaluate shell (before ++ p :: after) = evaluateFrom shell ran (values ++ [p]) after) := by
  have hHere : evaluate shell (before ++ p :: after) = evaluateFrom shell ran values (p :: after) :=
    evaluateFrom_append_of_values hBefore
  -- What comes of the parameter is decided at its own turn.
  rw [hHere]
  refine ⟨fun c hText hLine => ⟨?ran, fun stdout stderr hShell => ?replaced⟩, fun hOther => ?kept⟩
  case ran => exact ran_append_prefix_evaluateFrom ⟨hText, hLine⟩
  case replaced =>
    have hTrim := Text.isTrim_trim (Text.decodeLossy stdout)
    exact ⟨_, hTrim, evaluateFrom_cons_of_ok ⟨hText, hLine⟩ hShell (.well hTrim)⟩
  case kept =>
    apply evaluateFrom_cons_of_not_standsFor
    rintro c ⟨hText, hLine⟩
    exact hLine (hOther c hText)

/-- A command with parentheses behind a parameter of another kind is run as it stands, and so is the
empty command; a text that goes on behind the last parenthesis is none. -/
theorem parameter_in_its_place_parentheses :
    let shell : ShellBehaviour := fun _ c =>
      some (.ended (.code 0) (Text.encode (" " ++ c ++ "\n")) [])
    let tail : List Param := [.text "$()", .text "$(a)\n"]
    evaluate shell [.int 1] = ⟨[], .values [.int 1]⟩ ∧
      ["(a) b)"] <+: (evaluate shell ([.int 1] ++ .text "$((a) b))" :: tail)).commands ∧
      evaluate shell ([.int 1] ++ .text "$((a) b))" :: tail) =
        ⟨["(a) b)", ""], .values [.int 1, .text "(a) b)", .text "", .text "$(a)\n"]⟩ := by
  intro shell tail
  have hBefore : evaluate shell [.int 1] = ⟨[], .values [.int 1]⟩ := by cbv
  have hText : (.text "$((a) b))" : Param) = .text ("$(" ++ "(a) b)" ++ ")") := by decide
  have hLine : '\n' ∉ "(a) b)".toList := by decide
  obtain ⟨hCommand, -⟩ :=
    parameter_in_its_place shell [.int 1] tail (.text "$((a) b))") [] [.int 1] hBefore
  exact ⟨hBefore, (hCommand "(a) b)" hText hLine).1, by cbv⟩

/-- Not every command that is enclosed like this is run: one on two lines is kept as a text. -/
theorem not_every_enclosed_text_is_run :
    ¬ ∀ (shell : ShellBehaviour) (c : String) (stdout stderr : Bytes),
      shell [] c = some (.ended (.code 0) stdout stderr) →
        evaluate shell [.text ("$(" ++ c ++ ")")] =
          ⟨[c], .values [.text (Text.trim (Text.decodeLossy stdout))]⟩ := by
  intro h
  let shell : ShellBehaviour := fun _ _ => some (.ended (.code 0) (Text.encode "a\nb\n") [])
  have hKept : evaluate shell [.text ("$(" ++ "echo a\necho b" ++ ")")] =
      ⟨[], .values [.text "$(echo a\necho b)"]⟩ := by cbv
  have hRun := h shell "echo a\necho b" (Text.encode "a\nb\n") [] rfl
  rw [hKept] at hRun
  cases hRun

end SqlMetrics.Param
