import SymbolicSimplifier.Proofs.Rewriting.Failure
import SymbolicSimplifier.Proofs.Simplifier.Limit

set_option autoImplicit false

namespace SymbolicSimplifier

open SymbolicSimplifier.Expr

namespace Simplifier

def attemptFirst (handlers : Prelude) (e : Expr) : Int → List Rule → Attempt (Option Step)
  | _, [] => .ok none
  | index, rule :: rules => do
    let after ← e.attemptPass handlers rule.attempt
    if after == e then attemptFirst handlers e (index + 1) rules
    else return some ⟨index, some rule, e, after⟩

def attemptFolding (handlers : Prelude) (e : Expr) : Attempt (Option Step) := do
  let after ← e.attemptPass handlers .ok
  return if after == e then none else some ⟨-1, none, e, after⟩

def attemptAdvance (simplifier : Simplifier) (e : Expr) : Attempt (Option Step) := do
  match ← attemptFirst simplifier.handlers e 0 simplifier.rules.rules with
  | some step => return some step
  | none => attemptFolding simplifier.handlers e

def attemptFrom (simplifier : Simplifier) (depth : Nat) (e : Expr)
    (proceed : Step → Attempt Run) : Attempt Run :=
  if e.deeperThan depth then .ok ⟨e, [], e, .tooDeep⟩
  else do
    match ← simplifier.attemptAdvance e with
    | none => return ⟨e, [], e, .settled⟩
    | some step => proceed step

def attemptRun (simplifier : Simplifier) (depth : Nat) : Nat → Expr → Attempt Run
  | 0, e => simplifier.attemptFrom depth e fun step => .ok ⟨e, [], e, .limited step⟩
  | limit + 1, e => simplifier.attemptFrom depth e fun step => do
    let rest ← attemptRun simplifier depth limit step.after
    return ⟨e, step :: rest.steps, rest.final, rest.ending⟩

def attemptSimplify (simplifier : Simplifier) (depth limit : Nat) (e : Expr) : Attempt Expr := do
  let run ← simplifier.attemptRun depth limit e
  run.result.mapError .error

def IsWellFormed (simplifier : Simplifier) : Prop :=
  ∀ rule ∈ simplifier.rules.rules, rule.IsWellFormed

theorem attemptFirst_eq {handlers : Prelude} {rules : List Rule}
    (formed : ∀ rule ∈ rules, rule.IsWellFormed) {e : Expr} (here : e.isWellFormed = true)
    (index : Int) :
    attemptFirst handlers e index rules = .ok (firstChange? handlers e index rules) := by
  induction rules generalizing index with
  | nil => rfl
  | cons rule rules ih =>
    obtain ⟨first, rest⟩ := List.forall_mem_cons.mp formed
    rw [attemptFirst, (Rule.attemptPass_yields first handlers here).1, Attempt.ok_bind,
      firstChange?, ih rest]
    split <;> rfl

section Formed

variable {simplifier : Simplifier} (formed : simplifier.IsWellFormed)
include formed

theorem attemptAdvance_eq {e : Expr} (here : e.isWellFormed = true) :
    simplifier.attemptAdvance e = .ok (simplifier.advance? e) := by
  have folding :
      attemptFolding simplifier.handlers e = .ok (foldingStep? simplifier.handlers e) := by
    rw [attemptFolding, (attemptFold_yields simplifier.handlers here).1]
    rfl
  rw [attemptAdvance, attemptFirst_eq formed here, Attempt.ok_bind, folding, advance?]
  cases firstChange? simplifier.handlers e 0 simplifier.rules.rules <;> rfl

theorem advance?_isWellFormed {e : Expr} {step : Step} (here : e.isWellFormed = true)
    (advanced : simplifier.advance? e = some step) : step.after.isWellFormed = true := by
  obtain ⟨earlier, rule, later, table, rfl, _⟩ | ⟨rfl, _⟩ := advance?_eq_some advanced
  · exact (Rule.attemptPass_yields (formed rule (by simp [table])) simplifier.handlers here).2
  · exact (attemptFold_yields simplifier.handlers here).2

theorem attemptFrom_eq {e : Expr} (here : e.isWellFormed = true) (depth limit : Nat)
    {proceed : Step → Attempt Run}
    (proceeds : e.deeperThan depth = false → ∀ step, simplifier.advance? e = some step →
      proceed step = .ok (simplifier.run depth limit e)) :
    simplifier.attemptFrom depth e proceed = .ok (simplifier.run depth limit e) := by
  rw [attemptFrom, attemptAdvance_eq formed here, Attempt.ok_bind]
  by_cases deep : e.deeperThan depth = true
  · rw [if_pos deep, run_deep deep]
  · rw [if_neg deep]
    rw [Bool.not_eq_true] at deep
    cases advanced : simplifier.advance? e with
    | none =>
      rw [run_settled deep advanced]
      rfl
    | some step => exact proceeds deep step advanced

theorem attemptRun_eq (depth limit : Nat) {e : Expr} (here : e.isWellFormed = true) :
    simplifier.attemptRun depth limit e = .ok (simplifier.run depth limit e) := by
  induction limit generalizing e with
  | zero =>
    refine attemptFrom_eq formed here depth 0 fun shallow step advanced => ?_
    rw [run_zero shallow advanced]
  | succ limit ih =>
    refine attemptFrom_eq formed here depth (limit + 1) fun shallow step advanced => ?_
    rw [ih (advance?_isWellFormed formed here advanced), run_succ shallow advanced]
    rfl

end Formed

/-- Simplification returns a well-formed expression or reports a limit, whatever the handlers of the
prelude do: no fault of theirs and no check of a constructor stops it. -/
theorem fails_only_at_limits (simplifier : Simplifier) (formed : simplifier.IsWellFormed)
    (depth limit : Nat) {e : Expr} (here : e.isWellFormed = true) :
    simplifier.attemptSimplify depth limit e =
        (simplifier.run depth limit e).result.mapError Failure.error ∧
      ((∃ result, simplifier.attemptSimplify depth limit e = .ok result ∧
          result.isWellFormed = true) ∨
        ∃ error, simplifier.attemptSimplify depth limit e = .error (.error error) ∧
          error.report.kind = .limit) := by
  have attempted : simplifier.attemptSimplify depth limit e =
      (simplifier.run depth limit e).result.mapError Failure.error := by
    rw [attemptSimplify, attemptRun_eq formed depth limit here]
    rfl
  refine ⟨attempted, ?_⟩
  rw [attempted]
  have final : (simplifier.run depth limit e).final.isWellFormed = true :=
    (run_path simplifier depth limit e).keeps (P := fun e => e.isWellFormed = true)
      (fun _ _ here advanced => advance?_isWellFormed formed here advanced) here
  unfold Run.result
  cases (simplifier.run depth limit e).ending with
  | settled => exact .inl ⟨_, rfl, final⟩
  | limited next => exact .inr ⟨_, rfl, rfl⟩
  | tooDeep => exact .inr ⟨_, rfl, rfl⟩

theorem standard_isWellFormed : standard.IsWellFormed := by
  unfold IsWellFormed Rule.IsWellFormed
  decide

theorem division_by_zero_fails_only_at_limits :
    standard.IsWellFormed ∧ (Identities.x + 1 / 0).isWellFormed = true ∧
      (Number.int 1).div (.int 0) = .error .zeroDivision ∧
      (standard.run standardDepth 5 (Identities.x + 1 / 0)).result =
        .ok (Identities.x + .nan) ∧
      standard.attemptSimplify standardDepth 5 (Identities.x + 1 / 0) =
        .ok (Identities.x + .nan) ∧
      (Identities.x + .nan).isWellFormed = true := by
  have here : (Identities.x + 1 / 0).isWellFormed = true := by decide
  have returned : (standard.run standardDepth 5 (Identities.x + 1 / 0)).result =
      .ok (Identities.x + .nan) := rfl
  have attempted := (fails_only_at_limits standard standard_isWellFormed standardDepth 5 here).1
  rw [returned] at attempted
  exact ⟨standard_isWellFormed, here, rfl, returned, attempted, by decide⟩

end Simplifier

end SymbolicSimplifier
