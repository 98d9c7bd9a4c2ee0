import SymbolicSimplifier.Mapping
import SymbolicSimplifier.Proofs.Expr.WellFormed
import SymbolicSimplifier.Proofs.Folding.Basic

set_option autoImplicit false

namespace SymbolicSimplifier

namespace Mapping

def ofAssignments (assignments : List (String × (Expr ⊕ Number))) : Mapping :=
  assignments.map fun assignment =>
    (.expr (.var assignment.1), assignment.2.elim Value.expr Value.number)

theorem lift_ofAssignments (assignments : List (String × (Expr ⊕ Number))) :
    (ofAssignments assignments).lift =
      .ok (.ofList (assignments.map fun assignment =>
        (assignment.1, assignment.2.elim id Expr.literal))) := by
  unfold lift ofAssignments
  rw [mapM_eq_ok]
  · rfl
  · rw [List.forall₂_map_left_iff, List.forall₂_map_right_iff, List.forall₂_same]
    rintro ⟨name, e | n⟩ _
    · rfl
    · rfl

end Mapping

namespace Expr

variable {handlers : Prelude}

theorem fold_substitute_fold (e : Expr) (bindings : Bindings) :
    ((e.fold handlers).substitute bindings).fold handlers =
      (e.substitute bindings).fold handlers := by
  have computed (a : Expr) : (a.substitute bindings).fold handlers =
      a.bottomUp (fun leaf => (leaf.substitute bindings).fold handlers) handlers.settle :=
    bottomUp_substitute id handlers.settle bindings a
  rw [computed, computed e]
  exact bottomUp_fold (fun _ _ _ result => Prelude.settle_of_result? result) e

/-- Expressions and numbers can be put in for variables before constants are folded or after, and
then again: what is folded in the end is the same, and so is the number it may be evaluated to. -/
theorem folding_before_substitution (handlers : Prelude) (e : Expr)
    (assignments : List (String × (Expr ⊕ Number))) :
    ∃ bindings, (Mapping.ofAssignments assignments).lift = .ok bindings ∧
      ((e.fold handlers).substitute bindings).fold handlers =
        (e.substitute bindings).fold handlers ∧
      ((e.fold handlers).substitute bindings).evaluate? handlers =
        (e.substitute bindings).evaluate? handlers := by
  refine ⟨_, Mapping.lift_ofAssignments assignments, fold_substitute_fold e _, ?_⟩
  exact congrArg literal? (fold_substitute_fold e _)

end Expr

end SymbolicSimplifier
