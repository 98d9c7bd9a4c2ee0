import Mathlib.Data.List.Basic
import SymbolicSimplifier.Proofs.Expr.Equality
import SymbolicSimplifier.Simplifier.Run

set_option autoImplicit false

namespace SymbolicSimplifier

open SymbolicSimplifier.Expr

def Run.states (run : Run) : List Expr :=
  run.initial :: run.steps.map Step.after

def Run.Reaches (run : Run) (f : Expr) : Prop :=
  f ∈ run.states ∨ run.final = f ∨ run.result = .ok f ∨
    ∃ count, run.result = .error (.unsettled count f)

namespace Simplifier

theorem firstChange?_eq_none_iff (handlers : Prelude) (e : Expr) (index : Int)
    (rules : List Rule) :
    firstChange? handlers e index rules = none ↔
      ∀ rule ∈ rules, (rule.rewrite handlers e).same e = true := by
  induction rules generalizing index with
  | nil => simp [firstChange?]
  | cons rule rules ih =>
    by_cases unchanged : (rule.rewrite handlers e).same e = true <;>
      simp [firstChange?, unchanged, ih]

theorem firstChange?_eq_some {handlers : Prelude} {e : Expr} {index : Int} {rules : List Rule}
    {step : Step} (found : firstChange? handlers e index rules = some step) :
    ∃ earlier rule later, rules = earlier ++ rule :: later ∧
      step = ⟨index + earlier.length, some rule, e, rule.rewrite handlers e⟩ ∧
      (rule.rewrite handlers e).same e = false ∧
      ∀ rule ∈ earlier, (rule.rewrite handlers e).same e = true := by
  induction rules generalizing index with
  | nil => simp [firstChange?] at found
  | cons rule rules ih =>
    by_cases unchanged : (rule.rewrite handlers e).same e = true
    · simp only [firstChange?, beq_eq_same, unchanged, if_true] at found
      obtain ⟨earlier, other, later, rfl, rfl, changed, same⟩ := ih found
      refine ⟨rule :: earlier, other, later, rfl, ?_, changed, ?_⟩
      · simp only [List.length_cons, Step.mk.injEq, and_true]
        omega
      · exact List.forall_mem_cons.mpr ⟨unchanged, same⟩
    · simp only [firstChange?, beq_eq_same, unchanged] at found
      cases found
      exact ⟨[], rule, rules, rfl, by simp, by simpa using unchanged, by simp⟩

variable {simplifier : Simplifier}

theorem advance?_eq_none_iff_same (simplifier : Simplifier) (e : Expr) :
    simplifier.advance? e = none ↔
      (∀ rule ∈ simplifier.rules.rules, (rule.rewrite simplifier.handlers e).same e = true) ∧
        (e.fold simplifier.handlers).same e = true := by
  rw [← firstChange?_eq_none_iff simplifier.handlers e 0]
  unfold advance?
  cases firstChange? simplifier.handlers e 0 simplifier.rules.rules <;> simp [foldingStep?]

/-- A step is the pass of the first rule that changes the expression, or a folding pass that
changes it when no rule does. -/
theorem advance?_eq_some {e : Expr} {step : Step} (advanced : simplifier.advance? e = some step) :
    (∃ earlier rule later, simplifier.rules.rules = earlier ++ rule :: later ∧
      step = ⟨earlier.length, some rule, e, rule.rewrite simplifier.handlers e⟩ ∧
      (rule.rewrite simplifier.handlers e).same e = false ∧
      ∀ rule ∈ earlier, (rule.rewrite simplifier.handlers e).same e = true) ∨
    (step = ⟨-1, none, e, e.fold simplifier.handlers⟩ ∧
      (e.fold simplifier.handlers).same e = false ∧
      ∀ rule ∈ simplifier.rules.rules, (rule.rewrite simplifier.handlers e).same e = true) := by
  unfold advance? at advanced
  split at advanced
  case h_1 found =>
    cases advanced
    simpa using Or.inl (firstChange?_eq_some found)
  case h_2 none =>
    simp only [foldingStep?, beq_eq_same, Option.ite_none_left_eq_some, Option.some.injEq]
      at advanced
    refine .inr ⟨advanced.2.symm, by simpa using advanced.1, ?_⟩
    exact (firstChange?_eq_none_iff ..).mp none

theorem advance?_before {e : Expr} {step : Step} (advanced : simplifier.advance? e = some step) :
    step.before = e := by
  obtain ⟨_, _, _, _, rfl, _⟩ | ⟨rfl, _⟩ := advance?_eq_some advanced
  · rfl
  · rfl

inductive Path (simplifier : Simplifier) : Expr → List Step → Expr → Prop
  | nil (e : Expr) : Path simplifier e [] e
  | cons {e last : Expr} {step : Step} {steps : List Step} :
      simplifier.advance? e = some step → Path simplifier step.after steps last →
      Path simplifier e (step :: steps) last

theorem Path.split {e last : Expr} {earlier later : List Step}
    (path : simplifier.Path e (earlier ++ later) last) :
    ∃ middle, simplifier.Path e earlier middle ∧ simplifier.Path middle later last := by
  induction earlier generalizing e with
  | nil => exact ⟨e, .nil e, path⟩
  | cons step earlier ih =>
    cases path with
    | cons advanced rest =>
      obtain ⟨middle, first, second⟩ := ih rest
      exact ⟨middle, .cons advanced first, second⟩

theorem Path.getElem?_length {e middle : Expr} {earlier : List Step}
    (path : simplifier.Path e earlier middle) (later : List Step) :
    (e :: (earlier ++ later).map Step.after)[earlier.length]? = some middle := by
  induction path with
  | nil => rfl
  | cons _ _ ih => exact ih

theorem Path.advanced {e last : Expr} {steps : List Step} (path : simplifier.Path e steps last) :
    ∀ step ∈ steps, simplifier.advance? step.before = some step := by
  induction path with
  | nil => simp
  | cons advanced _ ih =>
    rw [← advance?_before advanced] at advanced
    exact List.forall_mem_cons.mpr ⟨advanced, ih⟩

theorem Path.keeps_states {P : Expr → Prop}
    (step : ∀ e step, P e → simplifier.advance? e = some step → P step.after)
    {e last : Expr} {steps : List Step} (path : simplifier.Path e steps last) (start : P e) :
    ∀ state ∈ e :: steps.map Step.after, P state := by
  induction path with
  | nil => simpa using start
  | cons advanced _ ih =>
    exact List.forall_mem_cons.mpr ⟨start, ih (step _ _ start advanced)⟩

theorem Path.keeps {P : Expr → Prop}
    (step : ∀ e step, P e → simplifier.advance? e = some step → P step.after)
    {e last : Expr} {steps : List Step} (path : simplifier.Path e steps last) (start : P e) :
    P last := by
  have reached := path.getElem?_length []
  rw [List.append_nil] at reached
  exact path.keeps_states step start last (List.mem_of_getElem? reached)

theorem run_initial (simplifier : Simplifier) (depth limit : Nat) (e : Expr) :
    (simplifier.run depth limit e).initial = e := by
  fun_cases Simplifier.run simplifier depth limit e <;> rfl

theorem run_path (simplifier : Simplifier) (depth limit : Nat) (e : Expr) :
    simplifier.Path e (simplifier.run depth limit e).steps
      (simplifier.run depth limit e).final := by
  fun_induction Simplifier.run simplifier depth limit e with
  | case1 => exact .nil _
  | case2 => exact .nil _
  | case3 => exact .nil _
  | case4 e _ step limit advanced rest ih => exact .cons advanced ih

theorem advance?_of_settled {depth limit : Nat} {e : Expr}
    (settled : (simplifier.run depth limit e).ending = .settled) :
    simplifier.advance? (simplifier.run depth limit e).final = none := by
  fun_induction Simplifier.run simplifier depth limit e with
  | case1 => cases settled
  | case2 _ _ _ none => exact none
  | case3 => cases settled
  | case4 e _ step limit advanced rest ih => exact ih settled

theorem advance?_of_limited {depth limit : Nat} {e : Expr} {next : Step}
    (limited : (simplifier.run depth limit e).ending = .limited next) :
    (simplifier.run depth limit e).length = limit ∧
      simplifier.advance? (simplifier.run depth limit e).final = some next := by
  fun_induction Simplifier.run simplifier depth limit e with
  | case1 => cases limited
  | case2 => cases limited
  | case3 e _ step advanced =>
    cases limited
    exact ⟨rfl, advanced⟩
  | case4 e _ step limit advanced rest ih =>
    obtain ⟨length, next⟩ := ih limited
    exact ⟨congrArg (· + 1) length, next⟩

end Simplifier

namespace Run

theorem result_eq_ok {run : Run} {e : Expr} (returned : run.result = .ok e) :
    run.ending = .settled ∧ run.final = e := by
  unfold result at returned
  split at returned
  case h_1 ending =>
    cases returned
    exact ⟨ending, rfl⟩
  case h_2 => cases returned
  case h_3 => cases returned

theorem result_eq_unsettled {run : Run} {count : Nat} {e : Expr}
    (stopped : run.result = .error (.unsettled count e)) :
    (∃ next, run.ending = .limited next) ∧ run.length = count ∧ run.final = e := by
  unfold result at stopped
  split at stopped
  case h_1 => cases stopped
  case h_2 next ending =>
    cases stopped
    exact ⟨⟨next, ending⟩, rfl, rfl⟩
  case h_3 => cases stopped

end Run

theorem Simplifier.run_keeps {simplifier : Simplifier} {P : Expr → Prop}
    (step : ∀ e step, P e → simplifier.advance? e = some step → P step.after)
    {depth limit : Nat} {e : Expr} (start : P e) :
    ∀ f, (simplifier.run depth limit e).Reaches f → P f := by
  have path := run_path simplifier depth limit e
  have final := path.keeps step start
  rintro f (passed | rfl | returned | ⟨count, stopped⟩)
  · rw [Run.states, run_initial] at passed
    exact path.keeps_states step start f passed
  · exact final
  · obtain ⟨_, rfl⟩ := Run.result_eq_ok returned
    exact final
  · obtain ⟨_, _, rfl⟩ := Run.result_eq_unsettled stopped
    exact final

end SymbolicSimplifier
