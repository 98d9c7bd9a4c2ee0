import SymbolicSimplifier.Proofs.Simplifier.Limit
import SymbolicSimplifier.Proofs.Simplifier.NormalForm

set_option autoImplicit false

namespace SymbolicSimplifier

open SymbolicSimplifier.Expr

namespace Simplifier

variable {simplifier : Simplifier} {handlers : Prelude} {rule : Rule}

theorem nodeValue?_of_rewrite_same (lightens : rule.Lightens) {e s : Expr}
    (unchanged : (rule.rewrite handlers e).same e = true) (inside : Subterm s e) :
    handlers.nodeValue? s = none := by
  rw [rewrite_eq_pass, pass_same_iff_quiet lightens.contract] at unchanged
  exact (unchanged s inside).1

theorem fold_same_of_rewrite_same (lightens : rule.Lightens) {e : Expr}
    (unchanged : (rule.rewrite handlers e).same e = true) : (e.fold handlers).same e = true := by
  rw [fold_eq_pass, pass_same_iff_quiet id_lighter]
  exact fun s inside => ⟨nodeValue?_of_rewrite_same lightens unchanged inside, rfl⟩

section Folding

variable (present : rule ∈ simplifier.rules.rules) (lightens : rule.Lightens)
include present lightens

theorem advance?_eq_firstChange? (e : Expr) :
    simplifier.advance? e = firstChange? simplifier.handlers e 0 simplifier.rules.rules := by
  unfold advance?
  cases found : firstChange? simplifier.handlers e 0 simplifier.rules.rules with
  | some step => rfl
  | none =>
    have unchanged := (firstChange?_eq_none_iff ..).mp found rule present
    simp [foldingStep?, fold_same_of_rewrite_same lightens unchanged]

theorem advance?_of_rule {e : Expr} {step : Step} (advanced : simplifier.advance? e = some step) :
    0 ≤ step.index ∧ step.rule.isSome = true := by
  rw [advance?_eq_firstChange? present lightens] at advanced
  obtain ⟨earlier, first, later, _, rfl, _⟩ := firstChange?_eq_some advanced
  simp

end Folding

theorem advance?_of_foldable {later : List Rule} (table : simplifier.rules.rules = rule :: later)
    (lightens : rule.Lightens) {e s : Expr} (inside : Subterm s e)
    (foldable : simplifier.handlers.nodeValue? s ≠ none) :
    simplifier.advance? e = some ⟨0, some rule, e, rule.rewrite simplifier.handlers e⟩ := by
  have changed : ¬ (rule.rewrite simplifier.handlers e).same e = true :=
    fun unchanged => foldable (nodeValue?_of_rewrite_same lightens unchanged inside)
  have present : rule ∈ simplifier.rules.rules := by simp [table]
  rw [advance?_eq_firstChange? present lightens, table]
  simp [firstChange?, changed]

/-- With a standard rule among its rules a simplifier takes no folding steps. If that is the first
rule, it is the one to take the step wherever something can be folded. -/
theorem standard_rule_precludes_folding (simplifier : Simplifier) {rule : Rule}
    (present : rule ∈ simplifier.rules.rules) (standard : rule ∈ Identities.standard.rules) :
    (∀ depth limit e, ∀ step ∈ (simplifier.run depth limit e).steps,
      step.index ≠ -1 ∧ step.rule ≠ none) ∧
    ∀ first, simplifier.rules.rules[0]? = some first → first ∈ Identities.standard.rules →
      ∀ e s, Subterm s e → simplifier.handlers.nodeValue? s ≠ none →
        ∃ step, simplifier.advance? e = some step ∧ step.index = 0 := by
  refine ⟨?never, ?first⟩
  case never =>
    intro depth limit e step member
    have advanced := (run_path simplifier depth limit e).advanced step member
    obtain ⟨index, byRule⟩ :=
      advance?_of_rule present (Identities.standard_lightens rule standard) advanced
    exact ⟨by omega, Option.isSome_iff_ne_none.mp byRule⟩
  case first =>
    intro first head standard e s inside foldable
    obtain ⟨later, table⟩ : ∃ later, simplifier.rules.rules = first :: later :=
      List.head?_eq_some_iff.mp (List.head?_eq_getElem?.trans head)
    have lightens := Identities.standard_lightens first standard
    exact ⟨_, advance?_of_foldable table lightens inside foldable, rfl⟩

def commuting : RuleTable :=
  ⟨[Identities.rule "add-comm" (Identities.x + Identities.y) (Identities.y + Identities.x)]⟩

def addZero : Rule :=
  Identities.rule "add-zero" (Identities.x + 0) Identities.x

theorem addZero_standard : addZero ∈ Identities.standard.rules :=
  .head _

theorem commuting_precludes_folding :
    addZero ∈ (standard.extend commuting).rules.rules ∧ addZero ∈ Identities.standard.rules ∧
      (∀ depth limit e, ∀ step ∈ ((standard.extend commuting).run depth limit e).steps,
        step.index ≠ -1 ∧ step.rule ≠ none) ∧
      ∃ step, (standard.extend commuting).advance? ((2 + 3) * Identities.y) = some step ∧
        step.index = 0 := by
  have present : addZero ∈ (standard.extend commuting).rules.rules :=
    List.mem_append_left _ addZero_standard
  have inside : Subterm (2 + 3) ((2 + 3) * Identities.y) := .arg (.head _) (.refl _)
  have foldable : Prelude.operators.nodeValue? (2 + 3) ≠ none := by decide
  obtain ⟨never, first⟩ := standard_rule_precludes_folding _ present addZero_standard
  exact ⟨present, addZero_standard, never, first addZero rfl addZero_standard _ _ inside foldable⟩

theorem firstChange?_append {e : Expr} {index : Int} {rules : List Rule} {step : Step}
    (found : firstChange? handlers e index rules = some step) (more : List Rule) :
    firstChange? handlers e index (rules ++ more) = some step := by
  induction rules generalizing index with
  | nil => simp [firstChange?] at found
  | cons rule rules ih =>
    by_cases unchanged : (rule.rewrite handlers e).same e = true
    · simp only [firstChange?, beq_eq_same, unchanged, if_true, List.cons_append] at found ⊢
      exact ih found
    · simpa [firstChange?, unchanged] using found

section Extension

variable (present : rule ∈ simplifier.rules.rules) (lightens : rule.Lightens)
include present lightens

theorem advance?_extend {e : Expr} {step : Step} (advanced : simplifier.advance? e = some step)
    (more : RuleTable) : (simplifier.extend more).advance? e = some step := by
  rw [advance?_eq_firstChange? present lightens] at advanced
  have found : firstChange? simplifier.handlers e 0 (simplifier.extend more).rules.rules =
      some step := firstChange?_append advanced more.rules
  have kept : rule ∈ (simplifier.extend more).rules.rules := List.mem_append_left _ present
  exact (advance?_eq_firstChange? kept lightens e).trans found

theorem Path.extend {e last : Expr} {steps : List Step} (path : simplifier.Path e steps last)
    (more : RuleTable) : (simplifier.extend more).Path e steps last := by
  induction path with
  | nil e => exact .nil e
  | cons advanced _ ih => exact .cons (advance?_extend present lightens advanced more) ih

theorem run_extend (depth limit : Nat) (e : Expr) (more : RuleTable) (k : Nat) :
    (simplifier.extend more).run depth ((simplifier.run depth limit e).length + k) e =
      ((simplifier.extend more).run depth k (simplifier.run depth limit e).final).prepend e
        (simplifier.run depth limit e).steps :=
  ((run_path simplifier depth limit e).extend present lightens more).run_add
    (run_shallow simplifier depth limit e) k

end Extension

/-- A simplifier with a standard rule among its rules, extended by any others, goes on from what
the simplifier alone returns, and counts the steps up to there. -/
theorem extend_continues_run (simplifier : Simplifier) {rule : Rule}
    (present : rule ∈ simplifier.rules.rules) (standard : rule ∈ Identities.standard.rules)
    {depth limit : Nat} {e result : Expr}
    (returned : (simplifier.run depth limit e).result = .ok result) (more : RuleTable) (k : Nat) :
    ((simplifier.extend more).run depth ((simplifier.run depth limit e).length + k) e).EndsLike
        ((simplifier.extend more).run depth k result) ∧
      ((simplifier.extend more).run depth ((simplifier.run depth limit e).length + k) e).steps =
        (simplifier.run depth limit e).steps ++
          ((simplifier.extend more).run depth k result).steps := by
  obtain ⟨_, rfl⟩ := Run.result_eq_ok returned
  rw [run_extend present (Identities.standard_lightens rule standard)]
  exact ⟨Run.prepend_endsLike _ _ _, rfl⟩

theorem commuting_continues_run :
    addZero ∈ standard.rules.rules ∧ addZero ∈ Identities.standard.rules ∧
      (standard.run standardDepth 5 ((Identities.y + 0) + Identities.z)).result =
        .ok (Identities.y + Identities.z) ∧
      (((standard.extend commuting).run standardDepth
          ((standard.run standardDepth 5 ((Identities.y + 0) + Identities.z)).length + 2)
          ((Identities.y + 0) + Identities.z)).EndsLike
        ((standard.extend commuting).run standardDepth 2 (Identities.y + Identities.z)) ∧
      ((standard.extend commuting).run standardDepth
          ((standard.run standardDepth 5 ((Identities.y + 0) + Identities.z)).length + 2)
          ((Identities.y + 0) + Identities.z)).steps =
        (standard.run standardDepth 5 ((Identities.y + 0) + Identities.z)).steps ++
          ((standard.extend commuting).run standardDepth 2 (Identities.y + Identities.z)).steps) ∧
      ((standard.extend commuting).run standardDepth 2 (Identities.y + Identities.z)).result =
        .error (.unsettled 2 (Identities.y + Identities.z)) := by
  have returned : (standard.run standardDepth 5 ((Identities.y + 0) + Identities.z)).result =
      .ok (Identities.y + Identities.z) := rfl
  have stopped :
      ((standard.extend commuting).run standardDepth 2 (Identities.y + Identities.z)).result =
        .error (.unsettled 2 (Identities.y + Identities.z)) := rfl
  have continued :=
    extend_continues_run standard addZero_standard addZero_standard returned commuting 2
  exact ⟨addZero_standard, addZero_standard, returned, continued, stopped⟩

end Simplifier

end SymbolicSimplifier
