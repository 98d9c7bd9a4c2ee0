import SymbolicSimplifier.Proofs.Identities.Lightening
import SymbolicSimplifier.Proofs.Simplifier.Path

set_option autoImplicit false

namespace SymbolicSimplifier

open SymbolicSimplifier.Expr

namespace Simplifier

def Lightens (simplifier : Simplifier) : Prop :=
  ∀ rule ∈ simplifier.rules.rules, rule.Lightens

def stepBound (size : Nat) : Nat :=
  size * (size + 4)

variable {simplifier : Simplifier}

theorem lightens_of_standard
    (standard : ∀ rule ∈ simplifier.rules.rules, rule ∈ Identities.standard.rules) :
    simplifier.Lightens :=
  fun rule member => Identities.standard_lightens rule (standard rule member)

theorem advance?_lighter (lightens : simplifier.Lightens) {e : Expr} {step : Step}
    (advanced : simplifier.advance? e = some step) : step.before = e ∧ Lighter step.after e := by
  -- A pass that gives no equal expression cannot have given back the same one.
  have changed {after : Expr} (lighter : LighterEq after e) (different : after.same e = false) :
      Lighter after e := by
    rcases lighter with rfl | lighter
    · simp at different
    · exact lighter
  obtain ⟨earlier, rule, later, table, rfl, different, _⟩ | ⟨rfl, different, _⟩ :=
    advance?_eq_some advanced
  · have lightensRule := lightens rule (by simp [table])
    exact ⟨rfl, changed (pass_lighter lightensRule.contract e) different⟩
  · exact ⟨rfl, changed (pass_lighter id_lighter e) different⟩

theorem Path.length_add_rank_le (lightens : simplifier.Lightens) {e last : Expr}
    {steps : List Step} (path : simplifier.Path e steps last) :
    steps.length + last.rank ≤ e.rank := by
  induction path with
  | nil => simp
  | cons advanced _ ih =>
    have falls := (advance?_lighter lightens advanced).2.rank_lt
    rw [List.length_cons]
    omega

theorem Path.size_le (lightens : simplifier.Lightens) {e last : Expr} {steps : List Step}
    (path : simplifier.Path e steps last) :
    ∀ step ∈ steps, step.after.size ≤ step.before.size := by
  induction path with
  | nil => simp
  | cons advanced _ ih =>
    obtain ⟨rfl, lighter⟩ := advance?_lighter lightens advanced
    exact List.forall_mem_cons.mpr ⟨lighter.size_le, ih⟩

theorem stepBound_pos (e : Expr) : 1 ≤ stepBound e.size :=
  Nat.mul_pos e.size_pos (by omega)

/-- However the steps from the expression are taken, there are no more than the bound and none of
them adds nodes, and a run with the bound for its limit does not stop at it. -/
structure RunsWithin (simplifier : Simplifier) (e : Expr) (bound : Nat) : Prop where
  path : ∀ steps last, simplifier.Path e steps last →
    steps.length ≤ bound ∧ ∀ step ∈ steps, step.after.size ≤ step.before.size
  run : ∀ depth limit, (simplifier.run depth limit e).length ≤ bound ∧
    ∀ step ∈ (simplifier.run depth limit e).steps, step.after.size ≤ step.before.size
  settles : ∀ depth count last,
    (simplifier.run depth bound e).result ≠ .error (.unsettled count last)

theorem standard_terminates (simplifier : Simplifier)
    (standard : ∀ rule ∈ simplifier.rules.rules, rule ∈ Identities.standard.rules) (e : Expr) :
    1 ≤ stepBound e.size ∧ simplifier.RunsWithin e (stepBound e.size) := by
  have lightens := lightens_of_standard standard
  have bound : e.rank ≤ stepBound e.size := rank_le e
  have paths (steps : List Step) (last : Expr) (path : simplifier.Path e steps last) :
      steps.length ≤ stepBound e.size ∧ ∀ step ∈ steps, step.after.size ≤ step.before.size := by
    have spent := path.length_add_rank_le lightens
    exact ⟨by omega, path.size_le lightens⟩
  refine ⟨stepBound_pos e, paths, fun _ _ => paths _ _ (run_path ..), ?_⟩
  intro depth count last stopped
  -- The limit is spent and there is a step to take, but the rank is spent as well.
  obtain ⟨⟨next, limited⟩, _, _⟩ := Run.result_eq_unsettled stopped
  obtain ⟨length, advanced⟩ := advance?_of_limited limited
  have spent := (run_path simplifier depth (stepBound e.size) e).length_add_rank_le lightens
  have falls := (advance?_lighter lightens advanced).2.rank_lt
  unfold Run.length at length
  omega

def reversed : Simplifier :=
  ⟨⟨Identities.standard.rules.reverse⟩, .operators, standardLimit⟩

theorem reversed_standard : ∀ rule ∈ reversed.rules.rules, rule ∈ Identities.standard.rules :=
  fun _ member => List.mem_reverse.mp member

theorem reversed_terminates :
    (∀ rule ∈ reversed.rules.rules, rule ∈ Identities.standard.rules) ∧
      1 ≤ stepBound (Identities.x + 0).size ∧
      reversed.RunsWithin (Identities.x + 0) (stepBound (Identities.x + 0).size) :=
  ⟨reversed_standard, standard_terminates reversed reversed_standard (Identities.x + 0)⟩

end Simplifier

end SymbolicSimplifier
