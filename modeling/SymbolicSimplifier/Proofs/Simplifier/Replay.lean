import SymbolicSimplifier.Proofs.Rule.Lookup
import SymbolicSimplifier.Proofs.Simplifier.Limit
import SymbolicSimplifier.Simplifier.Request
import SymbolicSimplifier.Simplifier.Trace

set_option autoImplicit false

namespace SymbolicSimplifier

open SymbolicSimplifier.Expr

namespace Simplifier

section Result

-- The result alone. All that is carried along is how many steps have been taken, and where to.
def reach (simplifier : Simplifier) (depth taken limit : Nat) (e : Expr) : Except Error Expr :=
  if e.deeperThan depth then .error (.tooDeep taken)
  else
    match simplifier.advance? e, limit with
    | none, _ => .ok e
    | some _, 0 => .error (.unsettled taken e)
    | some step, limit + 1 => reach simplifier depth (taken + 1) limit step.after

def reachWithin (simplifier : Simplifier) (depth : Nat) (value : Value) (limit : Option Value) :
    Except Error Expr := do
  let limit ← (limit.map Value.asLimit).getD (.ok simplifier.stepLimit)
  let e ← value.lift
  simplifier.reach depth 0 limit e

theorem reach_eq_result (simplifier : Simplifier) (start : Expr) (earlier : List Step)
    (depth limit : Nat) (e : Expr) :
    simplifier.reach depth earlier.length limit e =
      ((simplifier.run depth limit e).prepend start earlier).result := by
  fun_induction Simplifier.run simplifier depth limit e generalizing earlier with
  | case1 limit e deep =>
    unfold reach
    simp [deep, Run.prepend, Run.result, Run.length]
  | case2 limit e shallow settled =>
    unfold reach
    simp [shallow, settled, Run.prepend, Run.result]
  | case3 e shallow step advanced =>
    unfold reach
    simp [shallow, advanced, Run.prepend, Run.result, Run.length]
  | case4 e shallow step limit advanced rest ih =>
    have next := ih (earlier ++ [step])
    unfold reach
    simpa [shallow, advanced, Run.prepend, Run.result, Run.length] using next

theorem reachWithin_eq_result (simplifier : Simplifier) (depth : Nat) (value : Value)
    (limit : Option Value) :
    simplifier.reachWithin depth value limit =
      (simplifier.runWithin depth value limit).bind Run.result := by
  unfold reachWithin runWithin
  cases (limit.map Value.asLimit).getD (.ok simplifier.stepLimit) with
  | error error => rfl
  | ok limit =>
    cases value.lift with
    | error error => rfl
    | ok e =>
      have reached := simplifier.reach_eq_result e [] depth limit e
      rw [run_prepend_nil] at reached
      exact reached

theorem runWithin_eq_ok {simplifier : Simplifier} {depth : Nat} {value : Value}
    {limit : Option Value} {run : Run} (ran : simplifier.runWithin depth value limit = .ok run) :
    ∃ bound e, value.lift = .ok e ∧ run = simplifier.run depth bound e := by
  unfold runWithin at ran
  cases bounded : (limit.map Value.asLimit).getD (.ok simplifier.stepLimit) with
  | error error => simp [bounded, bind, Except.bind] at ran
  | ok bound =>
    cases lifted : value.lift with
    | error error => simp [bounded, lifted, bind, Except.bind] at ran
    | ok e =>
      simp only [bounded, lifted, bind, Except.bind, pure, Except.pure, Except.ok.injEq] at ran
      exact ⟨bound, e, rfl, ran.symm⟩

end Result

section Record

/-- The step is the pass of the rule with its index, before which no rule changes the expression,
or a folding pass of an expression that no rule changes. -/
structure Prescribes (simplifier : Simplifier) (step : Step) : Prop where
  changes : step.before.same step.after = false
  index : -1 ≤ step.index
  rule : ∀ index : Nat, step.index = index →
    ∃ rule, simplifier.rules.byIndex index = .ok rule ∧ step.rule = some rule ∧
      step.after = rule.rewrite simplifier.handlers step.before ∧
      ∀ earlier < index, ∀ other, simplifier.rules.byIndex (earlier : Nat) = .ok other →
        (other.rewrite simplifier.handlers step.before).same step.before = true
  folding : step.index = -1 →
    step.rule = none ∧ step.after = step.before.fold simplifier.handlers ∧
      ∀ rule ∈ simplifier.rules.rules,
        (rule.rewrite simplifier.handlers step.before).same step.before = true

variable {simplifier : Simplifier}

theorem Prescribes.of_advance? {e : Expr} {step : Step}
    (advanced : simplifier.advance? e = some step) : simplifier.Prescribes step := by
  have apart {after : Expr} (changed : after.same e = false) : e.same after = false :=
    Bool.eq_false_iff.mpr fun equal => by simp [same_symm equal] at changed
  obtain ⟨earlier, rule, later, table, rfl, changed, unchanged⟩ | ⟨rfl, changed, unchanged⟩ :=
    advance?_eq_some advanced
  case inl =>
    refine ⟨apart changed, by simp, ?_, by simp⟩
    intro index here
    obtain rfl : earlier.length = index := Int.ofNat.inj here
    refine ⟨rule, ?_, rfl, rfl, ?_⟩
    · simp [RuleTable.byIndex_natCast_iff, table]
    · intro position inside other found
      rw [RuleTable.byIndex_natCast_iff, table, List.getElem?_append_left inside] at found
      exact unchanged other (List.mem_of_getElem? found)
  case inr =>
    refine ⟨apart changed, by simp, by simp, ?_⟩
    exact fun _ => ⟨rfl, rfl, unchanged⟩

theorem Path.joined {e last : Expr} {steps : List Step} (path : simplifier.Path e steps last) :
    steps.map Step.before ++ [last] = e :: steps.map Step.after := by
  induction path with
  | nil => rfl
  | cons advanced _ ih => simp [advance?_before advanced, ih]

end Record

structure Replays (simplifier : Simplifier) (e : Expr) (trace : Trace) (result : Expr) : Prop where
  initial : trace.initial = some e
  final : trace.final = some result
  joined : trace.steps.map Step.before ++ [result] = e :: trace.steps.map Step.after
  prescribed : ∀ step ∈ trace.steps, simplifier.Prescribes step
  settled : simplifier.advance? result = none

theorem trace_replays_run (simplifier : Simplifier) {depth : Nat} {value : Value}
    {limit : Option Value} {run : Run} {result : Expr}
    (ran : simplifier.runWithin depth value limit = .ok run) (returned : run.result = .ok result) :
    simplifier.reachWithin depth value limit = .ok result ∧
      ∃ e, value.lift = .ok e ∧ simplifier.Replays e run.trace result := by
  refine ⟨?_, ?_⟩
  · rw [reachWithin_eq_result, ran]
    exact returned
  · obtain ⟨bound, e, lifted, rfl⟩ := runWithin_eq_ok ran
    obtain ⟨settled, rfl⟩ := Run.result_eq_ok returned
    have path := run_path simplifier depth bound e
    refine ⟨e, lifted, congrArg some (run_initial ..), rfl, path.joined, ?_, ?_⟩
    · intro step member
      exact .of_advance? (path.advanced step member)
    · exact advance?_of_settled settled

theorem trace_replays_mul_one :
    standard.runOn (.expr (Identities.x * 1 + 0)) none =
        .ok (standard.run standardDepth standardLimit (Identities.x * 1 + 0)) ∧
      (standard.run standardDepth standardLimit (Identities.x * 1 + 0)).result = .ok Identities.x ∧
      (standard.run standardDepth standardLimit (Identities.x * 1 + 0)).steps.map Step.index =
        [0, 8] ∧
      standard.reachWithin standardDepth (.expr (Identities.x * 1 + 0)) none =
        .ok Identities.x ∧
      ∃ e, Value.lift (.expr (Identities.x * 1 + 0)) = .ok e ∧
        standard.Replays e
          (standard.run standardDepth standardLimit (Identities.x * 1 + 0)).trace Identities.x := by
  have ran : standard.runOn (.expr (Identities.x * 1 + 0)) none =
      .ok (standard.run standardDepth standardLimit (Identities.x * 1 + 0)) := rfl
  have returned : (standard.run standardDepth standardLimit (Identities.x * 1 + 0)).result =
      .ok Identities.x := rfl
  exact ⟨ran, returned, rfl, trace_replays_run standard ran returned⟩

end Simplifier

end SymbolicSimplifier
