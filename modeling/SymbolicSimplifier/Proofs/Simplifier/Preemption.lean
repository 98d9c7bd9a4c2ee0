import SymbolicSimplifier.Proofs.Simplifier.ZeroPower
import SymbolicSimplifier.Simplifier.Trace

/-!
Rules that folding pre-empts. If everything that a rule matches can be folded, the rule never takes
a step once a standard rule stands before it in the table: where that rule is given a chance to change
nothing, nothing is left to fold, and so there is nothing to match. In the standard table this is so
of the rule for zero to the power of zero.
-/

set_option autoImplicit false

namespace SymbolicSimplifier

open SymbolicSimplifier.Expr

namespace Rule

def IsPreempted (handlers : Prelude) (rule : Rule) : Prop :=
  ∀ e, handlers.nodeValue? e = none → rule.contract? e = none

theorem IsPreempted.rewrite_eq {handlers : Prelude} {rule : Rule}
    (preempted : rule.IsPreempted handlers) {e : Expr}
    (unfoldable : ∀ s, Subterm s e → handlers.nodeValue? s = none) :
    rule.rewrite handlers e = e := by
  apply pass_eq_of_quiet
  intro s inside
  refine ⟨unfoldable s inside, ?_⟩
  rw [Rule.contract, preempted s (unfoldable s inside), Option.getD_none]

end Rule

namespace Simplifier

theorem advance?_ne_of_preempted {simplifier : Simplifier} {first : Rule} {later : List Rule}
    (table : simplifier.rules.rules = first :: later) (lightens : first.Lightens) {rule : Rule}
    (preempted : rule.IsPreempted simplifier.handlers) (different : rule ≠ first) {e : Expr}
    {step : Step} (advanced : simplifier.advance? e = some step) : step.rule ≠ some rule := by
  obtain ⟨earlier, taker, rest, split, rfl, changed, unchanged⟩ | ⟨rfl, _⟩ :=
    advance?_eq_some advanced
  · intro taken
    obtain rfl : taker = rule := Option.some.inj taken
    have before : first ∈ earlier := by
      cases earlier with
      | nil => exact absurd (List.cons.inj (split.symm.trans table)).1 different
      | cons other others =>
        have heads : other = first := (List.cons.inj (split.symm.trans table)).1
        exact heads ▸ .head _
    have unfoldable (s : Expr) (inside : Subterm s e) : simplifier.handlers.nodeValue? s = none :=
      nodeValue?_of_rewrite_same lightens (unchanged first before) inside
    rw [preempted.rewrite_eq unfoldable, same_refl] at changed
    cases changed
  · exact nofun

end Simplifier

namespace Identities

def zeroPowZero : Rule :=
  described "zero-pow-zero" "0 ** 0 is 1" (.power 0 0) 1

theorem zeroPowZero_of_title : ∀ rule ∈ standard.rules, ∀ other,
    rule.title?.getD other = "zero-pow-zero" → rule = zeroPowZero := by
  change ∀ rule ∈ arithmetic.rules ++ logarithm.rules, _
  simp [arithmetic, logarithm, Rule.title?, given?, Option.filter, zeroPowZero]

theorem zeroPowZero_isPreempted : zeroPowZero.IsPreempted .operators := by
  intro e unfoldable
  by_contra matched
  obtain ⟨result, contracted⟩ := Option.ne_none_iff_exists'.mp matched
  obtain ⟨bindings, matched, _⟩ := Option.map_eq_some_iff.mp contracted
  have equal : (Expr.power 0 0).same e = true := (unifies_of_matchFrom matched).equal
  simp only [power, binary, ofNat_eq, node_same_iff, List.forall₂_cons_left_iff,
    literal_same_iff, List.forall₂_nil_left_iff] at equal
  obtain ⟨_, rfl, _, _, ⟨base, rfl, _⟩, ⟨_, _, ⟨exponent, rfl, _⟩, rfl, rfl⟩, rfl⟩ := equal
  obtain ⟨n, value⟩ := Prelude.operators_pow_isSome base exponent
  have folded : Prelude.operators.literalValue? (.binary .pow)
      [.literal base, .literal exponent] = some n :=
    (Prelude.literalValue?_binary_iff ..).mpr ⟨base, exponent, rfl, rfl, value⟩
  cases unfoldable.symm.trans folded

end Identities

namespace Simplifier

theorem standard_name_ne {e : Expr} {step : Step} (advanced : standard.advance? e = some step) :
    step.name ≠ "zero-pow-zero" := by
  intro named
  have lightens := Identities.standard_lightens addZero addZero_standard
  have untaken : step.rule ≠ some Identities.zeroPowZero :=
    advance?_ne_of_preempted rfl lightens Identities.zeroPowZero_isPreempted
      (by simp [Identities.zeroPowZero, addZero]) advanced
  obtain ⟨earlier, taker, later, table, rfl, _⟩ | ⟨rfl, _⟩ := advance?_eq_some advanced
  · have member : taker ∈ Identities.standard.rules :=
      (congrArg (taker ∈ ·) table).mpr (by simp)
    exact untaken (congrArg some (Identities.zeroPowZero_of_title taker member _ named))
  · simp [Step.name] at named

/-- The rule for zero to the power of zero is in the standard table, and no run of the standard
simplifier takes a step with it, nor would a run that stops at its limit take the next one. -/
theorem zero_pow_zero_takes_no_step (depth limit : Nat) (e : Expr) :
    standard.rules.contains "zero-pow-zero" = true ∧
      (∀ step ∈ (standard.run depth limit e).steps, step.name ≠ "zero-pow-zero") ∧
      ∀ next, (standard.run depth limit e).ending = .limited next →
        next.name ≠ "zero-pow-zero" := by
  refine ⟨by decide, fun step member => ?_, fun next limited => ?_⟩
  · exact standard_name_ne ((run_path standard depth limit e).advanced step member)
  · exact standard_name_ne (advance?_of_limited limited).2

-- The exponent becomes zero, but in the same pass the power becomes one.
def vanishingExponent : Expr :=
  Identities.y * 1 + .power 0 (Identities.x - Identities.x)

theorem vanishing_exponent_takes_no_step :
    ∃ step next, (standard.run standardDepth 1 vanishingExponent).steps = [step] ∧
      (standard.run standardDepth 1 vanishingExponent).ending = .limited next ∧
      step.after = Identities.y * 1 + 1 ∧ step.name ≠ "zero-pow-zero" ∧
      next.name ≠ "zero-pow-zero" := by
  obtain ⟨_, steps, pending⟩ := zero_pow_zero_takes_no_step standardDepth 1 vanishingExponent
  obtain ⟨step, taken, after⟩ :
      ∃ step, (standard.run standardDepth 1 vanishingExponent).steps = [step] ∧
        step.after = Identities.y * 1 + 1 := ⟨_, rfl, rfl⟩
  obtain ⟨next, limited⟩ :
      ∃ next, (standard.run standardDepth 1 vanishingExponent).ending = .limited next := ⟨_, rfl⟩
  exact ⟨step, next, taken, limited, after, steps step (by simp [taken]), pending next limited⟩

end Simplifier

end SymbolicSimplifier
