import SymbolicSimplifier.Proofs.Rewriting.Correspondence
import SymbolicSimplifier.Proofs.Simplifier.Limit

set_option autoImplicit false

namespace SymbolicSimplifier

open SymbolicSimplifier.Expr

variable {related : Expr → Expr → Prop}

structure Step.Correspond (related : Expr → Expr → Prop) (first second : Step) : Prop where
  index : first.index = second.index
  before : related first.before second.before
  after : related first.after second.after

inductive Ending.Correspond : Ending → Ending → Prop
  | settled : Correspond .settled .settled
  | limited (next next' : Step) : Correspond (.limited next) (.limited next')
  | tooDeep : Correspond .tooDeep .tooDeep

namespace Run

structure Correspond (related : Expr → Expr → Prop) (first second : Run) : Prop where
  initial : related first.initial second.initial
  steps : List.Forall₂ (Step.Correspond related) first.steps second.steps
  final : related first.final second.final
  ending : Ending.Correspond first.ending second.ending

inductive ResultsAlike (related : Expr → Expr → Prop) :
    Except Error Expr → Except Error Expr → Prop
  | ok {a b : Expr} : related a b → ResultsAlike related (.ok a) (.ok b)
  | unsettled (count : Nat) {a b : Expr} : related a b →
      ResultsAlike related (.error (.unsettled count a)) (.error (.unsettled count b))
  | tooDeep (count : Nat) :
      ResultsAlike related (.error (.tooDeep count)) (.error (.tooDeep count))

structure Alike (related : Expr → Expr → Prop) (first second : Run) : Prop where
  indices : first.steps.map Step.index = second.steps.map Step.index
  states : List.Forall₂ related first.states second.states
  result : ResultsAlike related first.result second.result

variable {first second : Run}

theorem Alike.imp {other : Expr → Expr → Prop} (runs : Alike related first second)
    (weaker : ∀ a b, related a b → other a b) : Alike other first second := by
  obtain ⟨indices, states, result⟩ := runs
  refine ⟨indices, states.imp weaker, ?_⟩
  generalize first.result = left, second.result = right at result
  cases result with
  | ok here => exact .ok (weaker _ _ here)
  | unsettled count here => exact .unsettled count (weaker _ _ here)
  | tooDeep count => exact .tooDeep count

theorem Correspond.prepend {a b : Expr} (here : related a b) {step step' : Step}
    (steps : Step.Correspond related step step') (rest : Correspond related first second) :
    Correspond related (first.prepend a [step]) (second.prepend b [step']) :=
  ⟨here, .cons steps rest.steps, rest.final, rest.ending⟩

theorem Correspond.alike (runs : Correspond related first second) :
    Alike related first second := by
  obtain ⟨initial, steps, final, ending⟩ := runs
  refine ⟨?_, .cons initial ?_, ?_⟩
  · rw [← List.forall₂_eq_eq_eq, List.forall₂_map_left_iff, List.forall₂_map_right_iff]
    exact steps.imp fun _ _ step => step.index
  · rw [List.forall₂_map_left_iff, List.forall₂_map_right_iff]
    exact steps.imp fun _ _ step => step.after
  · have length : first.length = second.length := steps.length_eq
    unfold result
    rw [length]
    generalize first.ending = left, second.ending = right at ending
    cases ending with
    | settled => exact .ok final
    | limited => exact .unsettled _ final
    | tooDeep => exact .tooDeep _

end Run

namespace Simplifier

theorem firstChange?_correspond (alike : Correspondence related) {handlers : Prelude}
    (respects : handlers.Respects related) {rules rules' : List Rule}
    (all : List.Forall₂ (Rule.Correspond related) rules rules') {a b : Expr} (here : related a b)
    (index : Int) :
    Option.Rel (Step.Correspond related) (firstChange? handlers a index rules)
      (firstChange? handlers b index rules') := by
  induction all generalizing index with
  | nil => exact .none
  | @cons rule rule' _ _ contracts _ ih =>
    have after : related (rule.rewrite handlers a) (rule'.rewrite handlers b) :=
      alike.pass respects contracts here
    simp only [firstChange?, beq_eq_same, alike.same after here]
    split
    · exact ih (index + 1)
    · exact .some ⟨rfl, here, after⟩

theorem foldingStep?_correspond (alike : Correspondence related) {handlers : Prelude}
    (respects : handlers.Respects related) {a b : Expr} (here : related a b) :
    Option.Rel (Step.Correspond related) (foldingStep? handlers a) (foldingStep? handlers b) := by
  have after : related (a.fold handlers) (b.fold handlers) :=
    alike.pass respects (fun _ _ same => same) here
  simp only [foldingStep?, beq_eq_same, alike.same after here]
  split
  · exact .none
  · exact .some ⟨rfl, here, after⟩

structure Correspond (related : Expr → Expr → Prop) (first second : Simplifier) : Prop where
  handlers : first.handlers = second.handlers
  respects : first.handlers.Respects related
  rules : List.Forall₂ (Rule.Correspond related) first.rules.rules second.rules.rules

section Run

variable {first second : Simplifier} (alike : Correspondence related)
  (simplifiers : Correspond related first second)
include alike simplifiers

theorem advance?_correspond {a b : Expr} (here : related a b) :
    Option.Rel (Step.Correspond related) (first.advance? a) (second.advance? b) := by
  have changes := firstChange?_correspond alike simplifiers.respects simplifiers.rules here 0
  have folding := foldingStep?_correspond alike simplifiers.respects here
  unfold advance?
  rw [← simplifiers.handlers]
  generalize firstChange? first.handlers a 0 first.rules.rules = left,
    firstChange? first.handlers b 0 second.rules.rules = right at changes
  cases changes with
  | none => exact folding
  | some step => exact .some step

theorem advance?_none_correspond {a b : Expr} (here : related a b)
    (settled : first.advance? a = none) : second.advance? b = none := by
  have stepped := advance?_correspond alike simplifiers here
  rw [settled] at stepped
  generalize second.advance? b = other at stepped ⊢
  cases stepped
  rfl

theorem advance?_some_correspond {a b : Expr} (here : related a b) {step : Step}
    (advanced : first.advance? a = some step) :
    ∃ step', second.advance? b = some step' ∧ Step.Correspond related step step' := by
  have stepped := advance?_correspond alike simplifiers here
  rw [advanced] at stepped
  generalize second.advance? b = other at stepped ⊢
  cases stepped with
  | some steps => exact ⟨_, rfl, steps⟩

theorem run_correspond (depth limit : Nat) (a b : Expr) (here : related a b) :
    Run.Correspond related (first.run depth limit a) (second.run depth limit b) := by
  fun_induction Simplifier.run first depth limit a generalizing b with
  | case1 limit a deep =>
    rw [alike.deeperThan here] at deep
    unfold run
    rw [if_pos deep]
    exact ⟨here, .nil, here, .tooDeep⟩
  | case2 limit a shallow settled =>
    rw [alike.deeperThan here, Bool.not_eq_true] at shallow
    rw [run_settled shallow (advance?_none_correspond alike simplifiers here settled)]
    exact ⟨here, .nil, here, .settled⟩
  | case3 a shallow step advanced =>
    rw [alike.deeperThan here, Bool.not_eq_true] at shallow
    obtain ⟨step', advanced', _⟩ := advance?_some_correspond alike simplifiers here advanced
    rw [run_zero shallow advanced']
    exact ⟨here, .nil, here, .limited _ _⟩
  | case4 a shallow step limit advanced rest ih =>
    rw [alike.deeperThan here, Bool.not_eq_true] at shallow
    obtain ⟨step', advanced', steps⟩ := advance?_some_correspond alike simplifiers here advanced
    rw [run_succ shallow advanced']
    exact .prepend here steps (ih _ steps.after)

end Run

end Simplifier

end SymbolicSimplifier
