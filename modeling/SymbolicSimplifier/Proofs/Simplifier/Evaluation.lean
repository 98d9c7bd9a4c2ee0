import SymbolicSimplifier.Proofs.Rewriting.Literals
import SymbolicSimplifier.Proofs.Simplifier.Extension

set_option autoImplicit false

namespace SymbolicSimplifier

open SymbolicSimplifier.Expr

theorem Identities.standard_matchesNodes : ∀ rule ∈ standard.rules, rule.MatchesNodes := by
  change ∀ rule ∈ arithmetic.rules ++ logarithm.rules, rule.MatchesNodes
  simp [arithmetic, logarithm, Rule.MatchesNodes]

namespace Simplifier

section Settling

variable {simplifier : Simplifier} (nodes : ∀ rule ∈ simplifier.rules.rules, rule.MatchesNodes)
include nodes

theorem rewrite_eq_literal_of_fold {rule : Rule} (member : rule ∈ simplifier.rules.rules)
    {e : Expr} {n : Number} (folded : e.fold simplifier.handlers = .literal n) :
    rule.rewrite simplifier.handlers e = .literal n :=
  pass_eq_literal_of_fold (fun k => (nodes rule member).contract_leaf (isLeaf_literal k)) folded

theorem advance?_literal (n : Number) : simplifier.advance? (.literal n) = none := by
  rw [advance?_eq_none_iff_same]
  refine ⟨fun rule member => ?_, same_refl _⟩
  rw [rewrite_eq_literal_of_fold nodes member rfl]
  exact same_refl _

theorem advance?_of_folded {head : Head} {args : List Expr} {n : Number}
    (folded : (Expr.node head args).fold simplifier.handlers = .literal n) :
    ∃ step, simplifier.advance? (.node head args) = some step ∧ step.after = .literal n := by
  cases advanced : simplifier.advance? (.node head args) with
  | none =>
    have unchanged := ((advance?_eq_none_iff_same ..).mp advanced).2
    simp [folded] at unchanged
  | some step =>
    refine ⟨step, rfl, ?_⟩
    obtain ⟨earlier, rule, later, table, rfl, _⟩ | ⟨rfl, _⟩ := advance?_eq_some advanced
    · exact rewrite_eq_literal_of_fold nodes (by simp [table]) folded
    · exact folded

theorem run_literal (depth limit : Nat) (n : Number) :
    simplifier.run depth limit (.literal n) = ⟨.literal n, [], .literal n, .settled⟩ :=
  run_settled ((isLeaf_literal n).deeperThan _) (advance?_literal nodes n) limit

theorem result_literal {depth limit : Nat} {n : Number} {result : Expr}
    (returned : (simplifier.run depth limit (.literal n)).result = .ok result) :
    result = .literal n := by
  rw [run_literal nodes] at returned
  cases returned
  rfl

theorem symbolic_of_advanced {e : Expr} {step : Step}
    (advanced : simplifier.advance? e = some step) : e.literal? = none := by
  rcases e.literal_or_symbolic with ⟨n, rfl⟩ | symbolic
  · rw [advance?_literal nodes] at advanced
    cases advanced
  · exact symbolic

theorem Path.of_literal {n : Number} {last : Expr} {steps : List Step}
    (path : simplifier.Path (.literal n) steps last) : last = .literal n := by
  cases path with
  | nil => rfl
  | cons advanced _ => cases symbolic_of_advanced nodes advanced

/-- If the rules have operators or functions for patterns, an expression that is evaluated to a
number is simplified to the literal of this number, in one step unless it is this literal. -/
theorem evaluated_run_settles {depth limit : Nat} {e : Expr} {n : Number}
    (evaluated : e.evaluateWithin? depth simplifier.handlers = some (some n))
    (positive : 0 < limit) :
    (simplifier.run depth limit e).result = .ok (.literal n) ∧
      (simplifier.run depth limit e).length = if e.literal?.isSome then 0 else 1 := by
  obtain ⟨shallow, evaluated⟩ := evaluateWithin?_eq_some_iff.mp evaluated
  rw [evaluate?_eq_some_iff] at evaluated
  cases e with
  | literal m =>
    obtain rfl : m = n := literal.inj evaluated
    rw [run_literal nodes]
    exact ⟨rfl, rfl⟩
  | named name m => cases evaluated
  | var name => cases evaluated
  | node head args =>
    obtain ⟨step, advanced, after⟩ := advance?_of_folded nodes evaluated
    obtain ⟨limit, rfl⟩ := Nat.exists_eq_add_of_le' positive
    rw [run_succ shallow advanced, after, run_literal nodes]
    exact ⟨rfl, rfl⟩

end Settling

def commutingAlone : Simplifier :=
  ⟨commuting, .operators, standardLimit⟩

theorem commuting_evaluated_run_settles :
    (∀ rule ∈ commutingAlone.rules.rules, rule.MatchesNodes) ∧
      ((2 + 3) * (4 + 1) : Expr).evaluateWithin? standardDepth commutingAlone.handlers =
        some (some (.int 25)) ∧
      (commutingAlone.run standardDepth 1 ((2 + 3) * (4 + 1))).result = .ok 25 ∧
      (commutingAlone.run standardDepth 1 ((2 + 3) * (4 + 1))).length = 1 := by
  have nodes : ∀ rule ∈ commutingAlone.rules.rules, rule.MatchesNodes := by
    simp [commutingAlone, commuting, Rule.MatchesNodes]
  have evaluated : ((2 + 3) * (4 + 1) : Expr).evaluateWithin? standardDepth
      commutingAlone.handlers = some (some (.int 25)) := rfl
  obtain ⟨result, length⟩ := evaluated_run_settles nodes evaluated Nat.one_pos
  exact ⟨nodes, evaluated, result, length⟩

end Simplifier

end SymbolicSimplifier
