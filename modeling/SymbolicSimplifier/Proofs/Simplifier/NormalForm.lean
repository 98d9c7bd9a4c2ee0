import SymbolicSimplifier.Proofs.Simplifier.Termination

set_option autoImplicit false

namespace SymbolicSimplifier

open SymbolicSimplifier.Expr

namespace Simplifier

def IsNormal (simplifier : Simplifier) (e : Expr) : Prop :=
  ∀ s, Subterm s e → simplifier.matching s = [] ∧ simplifier.handlers.nodeValue? s = none

theorem matching_eq_nil_iff (simplifier : Simplifier) (e : Expr) :
    simplifier.matching e = [] ↔ ∀ rule ∈ simplifier.rules.rules, rule.contract? e = none := by
  simp [matching, Rule.contract?, List.filterMap_eq_nil_iff]

variable {simplifier : Simplifier}

theorem advance?_eq_none_iff_quiet (lightens : simplifier.Lightens) (e : Expr) :
    simplifier.advance? e = none ↔
      (∀ rule ∈ simplifier.rules.rules, Quiet simplifier.handlers rule.contract e) ∧
        Quiet simplifier.handlers id e := by
  rw [advance?_eq_none_iff_same, fold_eq_pass, pass_same_iff_quiet id_lighter]
  refine and_congr_left fun _ => forall₂_congr fun rule member => ?_
  rw [rewrite_eq_pass, pass_same_iff_quiet (lightens rule member).contract]

theorem advance?_eq_none_iff_isNormal (lightens : simplifier.Lightens) (e : Expr) :
    simplifier.advance? e = none ↔ simplifier.IsNormal e := by
  rw [advance?_eq_none_iff_quiet lightens]
  constructor
  · rintro ⟨rules, folding⟩ s inside
    refine ⟨(matching_eq_nil_iff ..).mpr ?_, (folding s inside).1⟩
    intro rule member
    exact ((lightens rule member).contract_eq_iff s).mp (rules rule member s inside).2
  · intro normal
    refine ⟨?_, fun s inside => ⟨(normal s inside).2, rfl⟩⟩
    intro rule member s inside
    have unmatched := (matching_eq_nil_iff simplifier s).mp (normal s inside).1 rule member
    exact ⟨(normal s inside).2, ((lightens rule member).contract_eq_iff s).mpr unmatched⟩

theorem standard_settled_iff_normal (simplifier : Simplifier)
    (standard : ∀ rule ∈ simplifier.rules.rules, rule ∈ Identities.standard.rules) (e : Expr) :
    (simplifier.advance? e = none ↔ simplifier.IsNormal e) ∧
      ∀ depth limit result, (simplifier.run depth limit e).result = .ok result →
        simplifier.IsNormal result := by
  have lightens := lightens_of_standard standard
  refine ⟨advance?_eq_none_iff_isNormal lightens e, ?_⟩
  intro depth limit result returned
  obtain ⟨settled, rfl⟩ := Run.result_eq_ok returned
  exact (advance?_eq_none_iff_isNormal lightens _).mp (advance?_of_settled settled)

theorem reversed_settled_iff_normal :
    (∀ rule ∈ reversed.rules.rules, rule ∈ Identities.standard.rules) ∧
      (reversed.advance? (Identities.x + 0) = none ↔ reversed.IsNormal (Identities.x + 0)) ∧
      ∀ depth limit result, (reversed.run depth limit (Identities.x + 0)).result = .ok result →
        reversed.IsNormal result :=
  ⟨reversed_standard, standard_settled_iff_normal reversed reversed_standard (Identities.x + 0)⟩

end Simplifier

end SymbolicSimplifier
