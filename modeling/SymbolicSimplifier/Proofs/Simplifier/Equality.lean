import SymbolicSimplifier.Proofs.Simplifier.Correspondence

set_option autoImplicit false

namespace SymbolicSimplifier

open SymbolicSimplifier.Expr

namespace RuleTable

theorem sameRules_iff (rules rules' : List Rule) :
    sameRules rules rules' = true ↔ List.Forall₂ (fun a b => a.same b = true) rules rules' := by
  induction rules generalizing rules' with
  | nil => cases rules' <;> simp [sameRules]
  | cons rule rules ih => cases rules' <;> simp [sameRules, ih]

end RuleTable

namespace Simplifier

-- With a prelude this fails: arithmetic on integers is exact, and on floats it is rounded.
theorem equal_inputs_run_alike {first second : Simplifier} (none : first.handlers = .empty)
    (none' : second.handlers = .empty) (tables : first.rules.same second.rules = true) {a b : Expr}
    (equal : a.same b = true) (depth limit : Nat) :
    (first.run depth limit a).Alike (fun a b => a.same b = true) (second.run depth limit b) := by
  have contracts : List.Forall₂ (Rule.Correspond fun a b => a.same b = true)
      first.rules.rules second.rules.rules :=
    ((RuleTable.sameRules_iff ..).mp tables).imp fun _ _ => Rule.correspond_of_same
  have simplifiers : Correspond (fun a b => a.same b = true) first second := by
    refine ⟨none.trans none'.symm, ?_, contracts⟩
    rw [none]
    exact Prelude.respects_empty _
  exact (run_correspond same_correspondence simplifiers depth limit a b equal).alike

def dropping (one : Number) : Simplifier :=
  ⟨⟨[Identities.rule "mul-one" (Identities.x * .literal one) Identities.x]⟩, .empty, standardLimit⟩

theorem equal_ones_run_alike :
    (dropping (.int 1)).handlers = .empty ∧ (dropping (.float 1.0)).handlers = .empty ∧
      (dropping (.int 1)).rules.same (dropping (.float 1.0)).rules = true ∧
      (Identities.y * .literal (.float 1.0)).same (Identities.y * .literal (.int 1)) = true ∧
      ((dropping (.int 1)).run standardDepth 5 (Identities.y * .literal (.float 1.0))).result =
        .ok Identities.y ∧
      ((dropping (.int 1)).run standardDepth 5 (Identities.y * .literal (.float 1.0))).Alike
        (fun a b => a.same b = true)
        ((dropping (.float 1.0)).run standardDepth 5 (Identities.y * .literal (.int 1))) := by
  have tables : (dropping (.int 1)).rules.same (dropping (.float 1.0)).rules = true := by decide
  have equal : (Identities.y * .literal (.float 1.0)).same
      (Identities.y * .literal (.int 1)) = true := by decide
  exact ⟨rfl, rfl, tables, equal, rfl, equal_inputs_run_alike rfl rfl tables equal standardDepth 5⟩

end Simplifier

end SymbolicSimplifier
