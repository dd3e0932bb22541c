import Mathlib
import SqlMetrics.CommandLine

/-!
# The command line without its flag

The flag for a dry run is one argument, and no other argument asks for a dry run.  Without it the
command line asks for the same, in earnest.

- **The argument**: `ofString_eq_dryRun_iff` says which argument the flag is.
- **Arguments**: `Gives` says what arguments give, one after another, and `Gives.erase` leaves the
  flag out among them.
- **Command lines**: `parse_erase` does so for what the program is to do.
-/

namespace SqlMetrics.CommandLine

/-- The flag for a dry run. -/
def dryRunFlag : String := "--dry-run"

/-! ## The argument -/

theorem ofFlag_eq_dryRun {action : Action} {name : String} {value : Option String}
    (h : Action.ofFlag action name value = .dryRun) : value = none ∧ action = .dryRun := by
  cases value with
  | none => exact ⟨rfl, h⟩
  | some v => cases h

theorem ofOption_ne_dryRun (o : ValueOption) (value : Option String) :
    Action.ofOption o value ≠ .dryRun := by
  cases value <;> exact nofun

/-- An argument of two dashes, a name and no value is the dashes and the name. -/
theorem eq_of_ofString_long {s name : String} (h : Argument.ofString s = .long name none) :
    s.toList = '-' :: '-' :: name.toList := by
  unfold Argument.ofString at h
  split at h
  case h_2 rest hDashes hChars =>
    obtain ⟨rfl, hValue⟩ := Argument.long.inj h
    have hNone : rest.drop (rest.takeWhile (· != '=')).length = [] := by
      split at hValue
      · cases hValue
      · assumption
    have hWhole : rest.takeWhile (· != '=') = rest :=
      (List.takeWhile_prefix _).eq_of_length_le (List.drop_eq_nil_iff.mp hNone)
    rw [hChars, String.toList_ofList, hWhole]
  all_goals cases h

/-- **No argument but the flag asks for a dry run.** -/
theorem ofString_eq_dryRun_iff {s : String} : Action.ofString s = .dryRun ↔ s = dryRunFlag := by
  constructor
  · intro h
    unfold Action.ofString at h
    split at h
    case h_3 name value hLong =>
      split at h
      · exact absurd h (ofOption_ne_dryRun _ _)
      · split at h
        case h_3 =>
          obtain ⟨rfl, -⟩ := ofFlag_eq_dryRun h
          exact String.toList_inj.mp (eq_of_ofString_long hLong)
        case h_1 => cases (ofFlag_eq_dryRun h).2
        case h_2 => cases (ofFlag_eq_dryRun h).2
        case h_4 => cases h
    case h_4 first rest hShort =>
      split at h
      · exact absurd h (ofOption_ne_dryRun _ _)
      · split at h <;> cases h
    all_goals cases h
  · rintro rfl
    decide

/-! ## Arguments -/

/-- What is given, in earnest. -/
def Given.inEarnest (g : Given) : Given := { g with dryRun := false }

@[simp] theorem Given.value?_inEarnest (g : Given) (o : ValueOption) :
    g.inEarnest.value? o = g.value? o := rfl

theorem Given.add_inEarnest (g : Given) (o : ValueOption) (value : String) :
    g.inEarnest.add o value = (g.add o value).map Given.inEarnest := by
  unfold Given.add
  rw [Given.value?_inEarnest]
  split
  · rfl
  · split <;> rfl

theorem Given.dryRun_add {g g' : Given} {o : ValueOption} {value : String}
    (h : g.add o value = .ok g') : g'.dryRun = g.dryRun := by
  unfold Given.add at h
  split at h
  · cases h
  · split at h
    · cases h
    · cases h
      rfl

theorem bind_eq_ok {α β : Type} {x : Except UsageError α} {f : α → Except UsageError β} {b : β} :
    (x >>= f) = .ok b ↔ ∃ a, x = .ok a ∧ f a = .ok b := by
  cases x <;> simp [bind, Except.bind]

theorem setDryRun_eq_ok_iff {g g' : Given} :
    g.setDryRun = .ok g' ↔ g.dryRun = false ∧ g' = { g with dryRun := true } := by
  unfold Given.setDryRun
  cases g.dryRun <;> simp [eq_comm]

/-- The arguments after those that have given something, one after another, up to what all have
given. -/
inductive Gives : Given → List String → Given → Prop
  | nil {g : Given} : Gives g [] g
  | endOptions {g : Given} {s : String} (hAction : Action.ofString s = .endOptions) : Gives g [s] g
  | flag {g g' : Given} {s : String} {rest : List String} (hAction : Action.ofString s = .dryRun)
      (hNot : g.dryRun = false) (hRest : Gives { g with dryRun := true } rest g') :
    Gives g (s :: rest) g'
  | set {g g₁ g' : Given} {s value : String} {o : ValueOption} {rest : List String}
      (hAction : Action.ofString s = .set o value) (hAdd : g.add o value = .ok g₁)
      (hRest : Gives g₁ rest g') :
    Gives g (s :: rest) g'
  /-- The value of an option is the next argument, which is no option. -/
  | takeNext {g g₁ g' : Given} {s value : String} {o : ValueOption} {rest : List String}
      (hAction : Action.ofString s = .takeNext o) (hPlain : Argument.ofString value = .plain)
      (hAdd : g.add o value = .ok g₁) (hRest : Gives g₁ rest g') :
    Gives g (s :: value :: rest) g'

/-- What arguments are read to give, they give one after another. -/
theorem Gives.of_read {g g' : Given} {args : List String}
    (h : read g args = .ok (.given g')) : Gives g args g' := by
  induction g, args using read.induct with
  | case1 g =>
    cases h
    exact .nil
  | case4 g s rest hAction ih =>
    rw [read.eq_def] at h
    simp only [hAction, bind_eq_ok, setDryRun_eq_ok_iff] at h
    obtain ⟨_, ⟨hNot, rfl⟩, hRest⟩ := h
    exact .flag hAction hNot (ih _ hRest)
  | case5 g s rest o value hAction ih =>
    rw [read.eq_def] at h
    simp only [hAction, bind_eq_ok] at h
    obtain ⟨g₁, hAdd, hRest⟩ := h
    exact .set hAction hAdd (ih g₁ hRest)
  | case7 g s o hAction value rest hPlain ih =>
    rw [read.eq_def] at h
    simp only [hAction, hPlain, if_true, bind_eq_ok] at h
    obtain ⟨g₁, hAdd, hRest⟩ := h
    exact .takeNext hAction (by simpa using hPlain) hAdd (ih g₁ hRest)
  | case9 g s hAction =>
    rw [read.eq_def] at h
    simp only [hAction, Except.ok.injEq, Reading.given.injEq] at h
    exact h ▸ .endOptions hAction
  | case8 g s o hAction value rest hOption =>
    rw [read.eq_def] at h
    simp [hAction, hOption] at h
  | case2 g s rest hAction | case3 g s rest hAction | case6 g s o hAction
  | case10 g s hAction extra rest | case11 g s rest e hAction =>
    rw [read.eq_def] at h
    simp [hAction] at h

/-- What arguments give one after another, they are read to give. -/
theorem Gives.read_eq {g g' : Given} {args : List String} (h : Gives g args g') :
    read g args = .ok (.given g') := by
  induction h with
  | nil => rfl
  | endOptions hAction =>
    rw [read.eq_def]
    simp only [hAction]
  | flag hAction hNot hRest ih =>
    rw [read.eq_def]
    simp only [hAction, bind_eq_ok, setDryRun_eq_ok_iff]
    exact ⟨_, ⟨hNot, rfl⟩, ih⟩
  | set hAction hAdd hRest ih =>
    rw [read.eq_def]
    simp only [hAction, bind_eq_ok]
    exact ⟨_, hAdd, ih⟩
  | takeNext hAction hPlain hAdd hRest ih =>
    rw [read.eq_def]
    simp only [hAction, hPlain, beq_self_eq_true, if_true, bind_eq_ok]
    exact ⟨_, hAdd, ih⟩

/-- Once a dry run is asked for, the rest of the arguments gives the same in earnest. -/
theorem Gives.inEarnest {g g' : Given} {args : List String} (h : Gives g args g')
    (hDry : g.dryRun = true) : Gives g.inEarnest args g'.inEarnest := by
  have hAdded {g g₁ : Given} {o : ValueOption} {value : String} (hAdd : g.add o value = .ok g₁) :
      g.inEarnest.add o value = .ok g₁.inEarnest := by
    rw [Given.add_inEarnest, hAdd]
    rfl
  induction h with
  | nil => exact .nil
  | endOptions hAction => exact .endOptions hAction
  | flag hAction hNot => simp [hDry] at hNot
  | set hAction hAdd hRest ih =>
    exact .set hAction (hAdded hAdd) (ih ((Given.dryRun_add hAdd).trans hDry))
  | takeNext hAction hPlain hAdd hRest ih =>
    exact .takeNext hAction hPlain (hAdded hAdd) (ih ((Given.dryRun_add hAdd).trans hDry))

/-- **Without the flag the arguments give the same, in earnest.** -/
theorem Gives.erase {g g' : Given} {args : List String} (h : Gives g args g')
    (hNot : g.dryRun = false) (hDry : g'.dryRun = true) :
    Gives g (args.erase dryRunFlag) g'.inEarnest := by
  have hOther {s : String} (hAction : Action.ofString s ≠ .dryRun) (rest : List String) :
      (s :: rest).erase dryRunFlag = s :: rest.erase dryRunFlag :=
    List.erase_cons_tail (by simpa using mt ofString_eq_dryRun_iff.mpr hAction)
  induction h with
  | nil | endOptions => simp [hNot] at hDry
  | @flag g g' s rest hAction _ hRest =>
    obtain rfl := ofString_eq_dryRun_iff.mp hAction
    have hSame : Given.inEarnest { g with dryRun := true } = g := by
      obtain ⟨values, dryRun⟩ := g
      obtain rfl : dryRun = false := hNot
      rfl
    rw [List.erase_cons_head]
    exact hSame ▸ hRest.inEarnest rfl
  | set hAction hAdd hRest ih =>
    rw [hOther (by simp [hAction])]
    exact .set hAction hAdd (ih ((Given.dryRun_add hAdd).trans hNot) hDry)
  | @takeNext g g₁ g' s value o rest hAction hPlain hAdd hRest ih =>
    -- The value of an option is no option, so it is not the flag.
    have hValue : Action.ofString value ≠ .dryRun := by
      intro hFlag
      rw [ofString_eq_dryRun_iff.mp hFlag] at hPlain
      exact absurd hPlain (by decide)
    rw [hOther (by simp [hAction]), hOther hValue]
    exact .takeNext hAction hPlain hAdd (ih ((Given.dryRun_add hAdd).trans hNot) hDry)

/-! ## Command lines -/

/-- What the program is to do, in earnest. -/
def Invocation.inEarnest (i : Invocation) : Invocation := { i with dryRun := false }

theorem ofGiven_inEarnest (g : Given) (env : Environment) :
    Invocation.ofGiven g.inEarnest env = Invocation.inEarnest <$> Invocation.ofGiven g env := by
  unfold Invocation.ofGiven
  simp only [map_bind, map_pure]
  rfl

theorem dryRun_ofGiven {g : Given} {env : Environment} {i : Invocation}
    (h : Invocation.ofGiven g env = .ok i) : i.dryRun = g.dryRun := by
  unfold Invocation.ofGiven at h
  simp only [bind_eq_ok] at h
  obtain ⟨_, -, _, -, _, -, _, -, _, -, _, -, _, -, _, -, _, -, _, -, hInvocation⟩ := h
  cases hInvocation
  rfl

/-- **Without the flag the command line asks for the same, in earnest.** -/
theorem parse_erase {args : List String} {env : Environment} {i : Invocation}
    (h : parse args env = .ok (.invocation i)) (hDry : i.dryRun = true) :
    parse (args.erase dryRunFlag) env = .ok (.invocation i.inEarnest) := by
  unfold parse at h
  split at h
  case h_4 g hRead =>
    have hGiven : Invocation.ofGiven g env = .ok i := by
      cases hInvocation : Invocation.ofGiven g env with
      | error e => simp [hInvocation, Except.map] at h
      | ok j => simpa [hInvocation, Except.map] using h
    have hAsked : g.dryRun = true := (dryRun_ofGiven hGiven).symm.trans hDry
    rw [parse, ((Gives.of_read hRead).erase rfl hAsked).read_eq]
    dsimp only
    rw [ofGiven_inEarnest, hGiven]
    rfl
  all_goals cases h

end SqlMetrics.CommandLine
