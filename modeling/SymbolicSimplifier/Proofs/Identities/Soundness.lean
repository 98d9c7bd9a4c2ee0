import SymbolicSimplifier.Proofs.Identities.Lightening
import SymbolicSimplifier.Proofs.Integer.Fragment

set_option autoImplicit false

namespace SymbolicSimplifier

open SymbolicSimplifier.Expr

namespace Rule

-- A power of zero is excluded because its exponent may be zero.
def Keeps (known : String → Prop) (values : String → Int) (rule : Rule) : Prop :=
  ∀ bindings n, Denotes known values (rule.pattern.substitute bindings) n →
    (∀ exponent, rule.pattern.substitute bindings ≠ .power 0 exponent) →
    Denotes known values (rule.replacement.substitute bindings) n

variable {known : String → Prop} {values : String → Int}

theorem eq_of_contract? {rule : Rule} (free : rule.pattern.isFloatFree = true) {e result : Expr}
    (integral : Integral known e) (contracted : rule.contract? e = some result) :
    ∃ bindings, e = rule.pattern.substitute bindings ∧
      result = rule.replacement.substitute bindings := by
  obtain ⟨bindings, matched, rfl⟩ := Option.map_eq_some_iff.mp contracted
  have unifies := unifies_of_matchFrom matched
  refine ⟨bindings, (integral.eq_of_same ?_ unifies.equal).symm, rfl⟩
  apply isFloatFree_substitute free
  intro name occurs
  obtain ⟨value, found⟩ := unifies.total name occurs
  have inside : Subterm value e :=
    (find?_of_matchFrom matched found).resolve_left (by simp [OrderedMap.find?_empty])
  rw [Bindings.lookup_of_find? found]
  exact (integral.of_subterm inside).isFloatFree

theorem Keeps.contract {rule : Rule} (keeps : rule.Keeps known values)
    (free : rule.pattern.isFloatFree = true) {e : Expr} {n : Int}
    (denotes : Denotes known values e n) (base : ∀ exponent, e ≠ .power 0 exponent) :
    Denotes known values (rule.contract e) n := by
  unfold Rule.contract
  cases contracted : rule.contract? e with
  | none => exact denotes
  | some result =>
    obtain ⟨bindings, rfl, rfl⟩ := eq_of_contract? free denotes.integral contracted
    exact keeps bindings n denotes base

end Rule

namespace Identities

theorem standard_keeps (known : String → Prop) (values : String → Int) :
    ∀ rule ∈ standard.rules, rule.Keeps known values := by
  change ∀ rule ∈ arithmetic.rules ++ logarithm.rules, rule.Keeps known values
  simp only [arithmetic, logarithm, List.cons_append, List.nil_append, List.forall_mem_cons,
    List.not_mem_nil, false_implies, implies_true, and_true]
  and_intros
  -- Patterns with a division, a function or a negative exponent are closed as impossible here.
  all_goals
    rintro bindings n ⟨integral, rfl⟩ base
    simp at integral base ⊢
  all_goals refine ⟨by simp [integral], ?_⟩
  all_goals simp [UnaryOp.onInteger, BinaryOp.onIntegers]
  -- What is left are sums and products of equals, the product of powers and regrouping.
  · exact two_mul _
  · exact sq _
  · obtain ⟨⟨_, _, left⟩, _, _, right⟩ := integral
    rw [Int.toNat_add (left.meaning_nonneg values) (right.meaning_nonneg values), pow_add]
  · exact (add_assoc ..).symm
  · exact (mul_assoc ..).symm

theorem standard_isFloatFree : ∀ rule ∈ standard.rules, rule.pattern.isFloatFree = true := by
  decide

end Identities

end SymbolicSimplifier
