import SymbolicSimplifier.Proofs.Identities.Lightening
import SymbolicSimplifier.Proofs.Matching.Correspondence
import SymbolicSimplifier.Proofs.Matching.Unification
import SymbolicSimplifier.Proofs.Substitution.Composition
import SymbolicSimplifier.Simplifier.Basic

set_option autoImplicit false

namespace SymbolicSimplifier

open SymbolicSimplifier.Expr

namespace Expr

theorem Unifies.substitute {pattern e : Expr} {solution : Bindings}
    (unifies : Unifies pattern e .empty solution) (values : Bindings) :
    Unifies pattern (e.substitute values) .empty (solution.andThen values) where
  total name occurs := by
    obtain ⟨value, found⟩ := unifies.total name occurs
    exact ⟨value.substitute values, by simp [Bindings.find?_andThen, found]⟩
  respects _ _ _ bound := by cases bound
  equal := by
    rw [← substitute_substitute]
    exact substitute_same unifies.equal values

theorem match?_of_unifies {pattern e : Expr} {solution : Bindings}
    (unifies : Unifies pattern e .empty solution) :
    ∃ result, pattern.match? e = some result ∧
      ∀ name ∈ pattern.varNames, (result.lookup name).same (solution.lookup name) = true := by
  obtain ⟨result, matched, kept⟩ :=
    matchFrom_of_respects (fun _ occurs => occurs) unifies.respects unifies.equal
  refine ⟨result, matched, ?_⟩
  intro name occurs
  obtain ⟨value, found⟩ := (unifies_of_matchFrom matched).total name occurs
  rw [Bindings.lookup_of_find? found]
  exact same_symm (kept name occurs value found)

theorem match?_substitute {pattern e : Expr} {bindings : Bindings}
    (matched : pattern.match? e = some bindings) (values : Bindings) :
    ∃ result, pattern.match? (e.substitute values) = some result ∧
      ∀ name ∈ pattern.varNames,
        (result.lookup name).same ((bindings.lookup name).substitute values) = true := by
  obtain ⟨result, again, agree⟩ :=
    match?_of_unifies ((unifies_of_matchFrom matched).substitute values)
  refine ⟨result, again, ?_⟩
  intro name occurs
  rw [← Bindings.lookup_andThen]
  exact agree name occurs

end Expr

theorem Rule.IsClosed.contract?_substitute {rule : Rule} (closed : rule.IsClosed) {e after : Expr}
    (contracted : rule.contract? e = some after) (values : Bindings) :
    ∃ result, rule.contract? (e.substitute values) = some result ∧
      result.same (after.substitute values) = true := by
  obtain ⟨bindings, matched, rfl⟩ := Option.map_eq_some_iff.mp contracted
  obtain ⟨found, again, agree⟩ := match?_substitute matched values
  refine ⟨rule.replacement.substitute found, Option.map_eq_some_iff.mpr ⟨found, again, rfl⟩, ?_⟩
  have instances : ∀ name ∈ rule.replacement.varNames,
      (found.lookup name).same ((bindings.andThen values).lookup name) = true := by
    intro name occurs
    rw [Bindings.lookup_andThen]
    exact agree name (closed name occurs)
  rw [substitute_substitute]
  simpa [rename_id] using substitute_correspond (f := id) same_correspondence instances

namespace Simplifier

theorem contractRoot_eq_some_iff {simplifier : Simplifier} {rule : Rule}
    (alone : simplifier.rules.rules = [rule]) (e after : Expr) :
    simplifier.contractRoot e = (after, some rule) ↔ rule.contract? e = some after := by
  rw [contractRoot, alone]
  cases contracted : rule.contract? e <;> simp [firstMatch?, contracted]

/-- If a simplifier of one rule applies it at the root of an expression, it does so to every
instance of the expression, and what it gives there is equal to the instance of the result. -/
theorem root_contraction_stable {simplifier : Simplifier} {rule : Rule}
    (alone : simplifier.rules.rules = [rule]) (closed : rule.IsClosed) {e after : Expr}
    (applied : simplifier.contractRoot e = (after, some rule)) (values : Bindings) :
    ∃ result, simplifier.contractRoot (e.substitute values) = (result, some rule) ∧
      result.same (after.substitute values) = true := by
  rw [contractRoot_eq_some_iff alone] at applied
  obtain ⟨result, contracted, equal⟩ := closed.contract?_substitute applied values
  exact ⟨result, (contractRoot_eq_some_iff alone ..).mpr contracted, equal⟩

def doubling : Rule :=
  Identities.rule "double" (Identities.x + Identities.x) (2 * Identities.x)

def doubler : Simplifier :=
  ⟨⟨[doubling]⟩, .operators, standardLimit⟩

-- The two terms are equal but not identical, and the value mentions the variable of the rule.
theorem doubler_contraction_stable :
    doubler.rules.rules = [doubling] ∧ doubling.IsClosed ∧
      doubler.contractRoot ((Identities.y + 1) + (Identities.y + .literal (.float 1.0))) =
        (2 * (Identities.y + 1), some doubling) ∧
      ∃ result,
        doubler.contractRoot ((Identities.x * Identities.y + 1) +
            (Identities.x * Identities.y + .literal (.float 1.0))) = (result, some doubling) ∧
          result.same (2 * (Identities.x * Identities.y + 1)) = true := by
  have closed : doubling.IsClosed := by simp [doubling, Rule.IsClosed]
  have applied :
      doubler.contractRoot ((Identities.y + 1) + (Identities.y + .literal (.float 1.0))) =
        (2 * (Identities.y + 1), some doubling) :=
    (contractRoot_eq_some_iff rfl ..).mpr rfl
  have stable := root_contraction_stable (rfl : doubler.rules.rules = [doubling]) closed applied
    (.ofList [("y", Identities.x * Identities.y)])
  exact ⟨rfl, closed, applied, stable⟩

end Simplifier

end SymbolicSimplifier
