import SymbolicSimplifier.Proofs.Expr.Symbols
import SymbolicSimplifier.Proofs.Simplifier.Termination

set_option autoImplicit false

namespace SymbolicSimplifier

open SymbolicSimplifier.Expr

namespace Rule

def InventsNothing (rule : Rule) : Prop :=
  ∀ bindings : Bindings,
    SymbolsWithin (rule.replacement.substitute bindings) (rule.pattern.substitute bindings)

theorem InventsNothing.contract {rule : Rule} (invents : rule.InventsNothing) (e : Expr) :
    SymbolsWithin (rule.contract e) e := by
  unfold Rule.contract
  cases contracted : rule.contract? e with
  | none => exact .refl e
  | some result =>
    obtain ⟨bindings, matched, rfl⟩ := Option.map_eq_some_iff.mp contracted
    exact (invents bindings).of_same (unifies_of_matchFrom matched).equal

end Rule

theorem Identities.standard_inventsNothing : ∀ rule ∈ standard.rules, rule.InventsNothing := by
  change ∀ rule ∈ arithmetic.rules ++ logarithm.rules, rule.InventsNothing
  simp only [arithmetic, logarithm, List.cons_append, List.nil_append, List.forall_mem_cons,
    List.not_mem_nil, false_implies, implies_true, and_true]
  and_intros
  -- Both sides are linear in the counts of what the variables stand for.
  all_goals
    intro bindings symbol
    simp [Head.symbols, List.count_append, List.count_cons]
  all_goals omega

theorem Expr.symbolsWithin_descends : Descends SymbolsWithin where
  refl := .refl
  trans := .trans
  literal n head args := .literal n (.node head args)
  node_map := .node_map

namespace Simplifier

variable {simplifier : Simplifier}

theorem advance?_symbolsWithin
    (invents : ∀ rule ∈ simplifier.rules.rules, rule.InventsNothing) {e : Expr} {step : Step}
    (advanced : simplifier.advance? e = some step) : SymbolsWithin step.after e := by
  obtain ⟨earlier, rule, later, table, rfl, _⟩ | ⟨rfl, _⟩ := advance?_eq_some advanced
  · exact symbolsWithin_descends.pass (invents rule (by simp [table])).contract e
  · exact symbolsWithin_descends.pass SymbolsWithin.refl e

/-- Standard rules, in whatever order and with whatever prelude, make no name of a variable, of a
named constant or of a function more frequent than it is in the expression a run starts from. -/
theorem standard_invents_no_symbols (simplifier : Simplifier)
    (standard : ∀ rule ∈ simplifier.rules.rules, rule ∈ Identities.standard.rules) (e : Expr)
    (depth limit : Nat) :
    ∀ f, (simplifier.run depth limit e).Reaches f →
      (∀ symbol, f.symbols.count symbol ≤ e.symbols.count symbol) ∧
        (e.isConstant = true → f.isConstant = true) := by
  intro f reached
  have invents (rule : Rule) (member : rule ∈ simplifier.rules.rules) : rule.InventsNothing :=
    Identities.standard_inventsNothing rule (standard rule member)
  have within : SymbolsWithin f e := by
    refine run_keeps (P := fun f => SymbolsWithin f e) ?_ (.refl e) f reached
    exact fun _ _ within advanced => (advance?_symbolsWithin invents advanced).trans within
  exact ⟨within, within.isConstant⟩

theorem reversed_invents_no_symbols :
    (∀ rule ∈ reversed.rules.rules, rule ∈ Identities.standard.rules) ∧
      (reversed.run standardDepth 5 (Identities.x.log + Identities.y.log)).result =
        .ok (Identities.x * Identities.y).log ∧
      ∀ symbol, (Identities.x * Identities.y).log.symbols.count symbol ≤
        (Identities.x.log + Identities.y.log).symbols.count symbol := by
  have returned : (reversed.run standardDepth 5 (Identities.x.log + Identities.y.log)).result =
      .ok (Identities.x * Identities.y).log := rfl
  have reached : (reversed.run standardDepth 5 (Identities.x.log + Identities.y.log)).Reaches
      (Identities.x * Identities.y).log := .inr (.inr (.inl returned))
  have within := standard_invents_no_symbols reversed reversed_standard _ _ 5 _ reached
  exact ⟨reversed_standard, returned, within.1⟩

end Simplifier

end SymbolicSimplifier
