import Mathlib.Data.List.Chain
import Mathlib.Logic.Relation
import SqlMetrics.Error

/-!
# Chains of causes

An error may name another one as its cause, and that again another one.

- **Steps**: `AnyError.CausedBy` is one step from an error to its cause.  A step goes down in rank
  and leaves the end of the text as it is (`CausedBy.laws`).
- **Chains**: so a chain of causes is short (`length_le_of_isChain`), and the text of an error ends
  with the text of every error behind it (`LeadsTo.endsIn`), the root among them (`exists_root`).
-/

namespace SqlMetrics

/-! ## Ends of texts -/

/-- Whether a text ends in another one. -/
def EndsIn (text tail : String) : Prop :=
  ∃ lead, text = lead ++ tail

namespace EndsIn

theorem refl (text : String) : EndsIn text text := ⟨"", String.empty_append.symm⟩

theorem append (lead tail : String) : EndsIn (lead ++ tail) tail := ⟨lead, rfl⟩

theorem trans {text middle tail : String} (hMiddle : EndsIn text middle)
    (hTail : EndsIn middle tail) : EndsIn text tail := by
  obtain ⟨lead, rfl⟩ := hMiddle
  obtain ⟨more, rfl⟩ := hTail
  exact ⟨lead ++ more, String.append_assoc.symm⟩

end EndsIn

namespace AnyError

/-! ## Steps -/

/-- Whether an error names another one as its cause. -/
def CausedBy (e cause : AnyError) : Prop :=
  e.cause? = some cause

/-- How far an error may be from the end of its causes. -/
def rank : AnyError → Nat
  | .collector _ => 3
  | .query _ | .building _ | .settings _ => 2
  | .command _ | .source _ | .exporting _ | .fetching _ => 1
  | .foreign _ _ => 0

theorem rank_le (e : AnyError) : e.rank ≤ 3 := by
  cases e <;> simp [rank]

/-- What holds of an error and the one that it names as its cause. -/
structure CauseLaws (e cause : AnyError) : Prop where
  rank_lt : cause.rank < e.rank
  /-- The error says what its cause says, with something before it or not. -/
  endsIn : EndsIn e.message cause.message
  /-- The causes of the error are the one that it names and the causes of that. -/
  causes_eq : e.causes = cause.message :: cause.causes

variable {e cause : AnyError}

theorem CausedBy.laws (h : e.CausedBy cause) : e.CauseLaws cause := by
  -- By the type of the error and the way in which it came about; what names no cause falls away.
  cases e with
  | collector e => cases e <;> cases h <;> exact ⟨by simp [rank], .append _ _, rfl⟩
  | query e => cases e <;> cases h <;> exact ⟨by simp [rank], .refl _, rfl⟩
  | command e => cases e <;> cases h; exact ⟨by simp [rank], .append _ _, rfl⟩
  | source e => cases e <;> cases h <;> exact ⟨by simp [rank], .append _ _, rfl⟩
  | exporting e => cases e <;> cases h <;> exact ⟨by simp [rank], .append _ _, rfl⟩
  | building e => cases e <;> cases h; exact ⟨by simp [rank], .append _ _, rfl⟩
  | fetching e => cases e <;> cases h; exact ⟨by simp [rank], .append _ _, rfl⟩
  | settings e =>
    cases e with
    | fetch => cases h; exact ⟨by simp [rank], .refl _, rfl⟩
    | notRead | notParsed => cases h; exact ⟨by simp [rank], .append _ _, rfl⟩
    | missing | invalid => cases h
  | foreign => cases h

/-- An error of the program that names no cause has none. -/
theorem eq_foreign_of_cause?_eq_none (h : e.cause? = none) (hCauses : e.causes ≠ []) :
    ∃ text further, e = .foreign text further := by
  cases e with
  | foreign text further => exact ⟨text, further, rfl⟩
  | collector e => cases e <;> first | exact absurd rfl hCauses | cases h
  | query e => cases e <;> first | exact absurd rfl hCauses | cases h
  | command e => cases e <;> first | exact absurd rfl hCauses | cases h
  | source e => cases e <;> first | exact absurd rfl hCauses | cases h
  | exporting e => cases e <;> first | exact absurd rfl hCauses | cases h
  | building e => cases e <;> first | exact absurd rfl hCauses | cases h
  | fetching e => cases e <;> first | exact absurd rfl hCauses | cases h
  | settings e => cases e <;> first | exact absurd rfl hCauses | cases h

/-! ## Chains -/

/-- Whether an error is another one or leads to it by causes. -/
def LeadsTo (e behind : AnyError) : Prop :=
  Relation.ReflTransGen CausedBy e behind

/-- Every cause in a chain is of lower rank than the error before it. -/
theorem length_le_rank {chain : List AnyError} (h : (e :: chain).IsChain CausedBy) :
    chain.length ≤ e.rank := by
  induction chain generalizing e with
  | nil => exact Nat.zero_le _
  | cons cause rest ih =>
    obtain ⟨hFirst, hRest⟩ := List.isChain_cons_cons.mp h
    exact Nat.lt_of_le_of_lt (ih hRest) hFirst.laws.rank_lt

theorem length_le_of_isChain {chain : List AnyError} (h : (e :: chain).IsChain CausedBy) :
    chain.length ≤ 3 :=
  (length_le_rank h).trans e.rank_le

/-- The text of an error ends with the text of every error behind it. -/
theorem LeadsTo.endsIn {behind : AnyError} (h : e.LeadsTo behind) :
    EndsIn e.message behind.message := by
  -- From the last step on, each of which takes something off the front.
  induction h with
  | refl => exact .refl _
  | tail _ hLast ih => exact ih.trans hLast.laws.endsIn

/-- Behind every error there is one that names no cause. -/
theorem exists_root (e : AnyError) : ∃ root, e.LeadsTo root ∧ root.cause? = none := by
  -- On the rank, which every step brings down.
  induction hRank : e.rank using Nat.strong_induction_on generalizing e with
  | _ rank ih =>
    subst hRank
    cases hCause : e.cause? with
    | none => exact ⟨e, .refl, hCause⟩
    | some cause =>
      have hStep : e.CausedBy cause := hCause
      obtain ⟨root, hBehind, hRoot⟩ := ih cause.rank hStep.laws.rank_lt cause rfl
      exact ⟨root, .head hStep hBehind, hRoot⟩

/-- There is but one such error. -/
theorem LeadsTo.root_unique {root other : AnyError} (hRoot : e.LeadsTo root)
    (hLast : root.cause? = none) (hOther : e.LeadsTo other) (hOtherLast : other.cause? = none) :
    other = root := by
  induction hRoot using Relation.ReflTransGen.head_induction_on with
  | refl =>
    rcases hOther.cases_head with hSame | ⟨cause, hStep, -⟩
    · exact hSame.symm
    · cases hLast.symm.trans hStep
  | head hStep hBehind ih =>
    rcases hOther.cases_head with rfl | ⟨cause, hStep', hOther⟩
    · cases hOtherLast.symm.trans hStep
    · -- An error names one cause at most.
      cases Option.some.inj (hStep.symm.trans hStep')
      exact ih hOther

end AnyError

end SqlMetrics
