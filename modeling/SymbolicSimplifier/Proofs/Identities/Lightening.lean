import SymbolicSimplifier.Identities.Logarithm
import SymbolicSimplifier.Proofs.Matching.Unification
import SymbolicSimplifier.Proofs.Rewriting.Pass

set_option autoImplicit false

namespace SymbolicSimplifier

open SymbolicSimplifier.Expr

namespace Rule

def Lightens (rule : Rule) : Prop :=
  ∀ bindings : Bindings,
    Lighter (rule.replacement.substitute bindings) (rule.pattern.substitute bindings)

def IsClosed (rule : Rule) : Prop :=
  ∀ name ∈ rule.replacement.varNames, name ∈ rule.pattern.varNames

theorem Lightens.contract? {rule : Rule} (lightens : rule.Lightens) {e result : Expr}
    (contracted : rule.contract? e = some result) : Lighter result e := by
  obtain ⟨bindings, matched, rfl⟩ := Option.map_eq_some_iff.mp contracted
  exact (lightens bindings).of_same (unifies_of_matchFrom matched).equal

theorem Lightens.contract {rule : Rule} (lightens : rule.Lightens) (e : Expr) :
    LighterEq (rule.contract e) e := by
  unfold Rule.contract
  cases contracted : rule.contract? e with
  | none => exact .refl e
  | some result => exact .inr (lightens.contract? contracted)

theorem Lightens.contract_eq_iff {rule : Rule} (lightens : rule.Lightens) (e : Expr) :
    rule.contract e = e ↔ rule.contract? e = none := by
  unfold Rule.contract
  cases contracted : rule.contract? e with
  | none => simp
  | some result =>
    have falls := (lightens.contract? contracted).rank_lt
    simp only [Option.getD_some, reduceCtorEq, iff_false]
    rintro rfl
    exact falls.false

end Rule

namespace Identities

attribute [simp] rule described w x y z Expr.euler Expr.log Expr.exp

theorem standard_lightens : ∀ rule ∈ standard.rules, rule.Lightens := by
  change ∀ rule ∈ arithmetic.rules ++ logarithm.rules, rule.Lightens
  simp only [arithmetic, logarithm, List.cons_append, List.nil_append, List.forall_mem_cons,
    List.not_mem_nil, false_implies, implies_true, and_true]
  and_intros
  -- Both sides are linear in the sizes and ranks of what the variables stand for.
  all_goals
    intro bindings
    have hw := size_pos (bindings.lookup "w")
    have hx := size_pos (bindings.lookup "x")
    have hy := size_pos (bindings.lookup "y")
    have hz := size_pos (bindings.lookup "z")
    constructor <;>
      simp [leftSize, Head.cost] <;> omega

theorem standard_isClosed : ∀ rule ∈ standard.rules, rule.IsClosed := by
  change ∀ rule ∈ arithmetic.rules ++ logarithm.rules, rule.IsClosed
  simp [arithmetic, logarithm, Rule.IsClosed]

end Identities

end SymbolicSimplifier
