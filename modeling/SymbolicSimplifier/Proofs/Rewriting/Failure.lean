import SymbolicSimplifier.MatchOutcome
import SymbolicSimplifier.Proofs.Expr.WellFormed
import SymbolicSimplifier.Proofs.Matching.Unification
import SymbolicSimplifier.Proofs.Rewriting.Pass

/-!
Passes that can fail. Here every node is made by the constructors with their checks, a pattern is
checked before it is matched, and a handler's fault goes on unless folding expects it. On
well-formed expressions nothing of this happens: the attempt succeeds, with the expression that the
pass without checks gives, and that is well-formed again.
-/

set_option autoImplicit false

namespace SymbolicSimplifier

inductive Failure where
  | fault (fault : Fault)
  | error (error : Error)

namespace Failure

def isUndefinedResult : Failure → Bool
  | .fault .zeroDivision => true
  | .fault .overflow => true
  | .fault .domain => true
  | .fault .operandType => true
  | .error refused => decide (refused.report.kind = .value ∨ refused.report.kind = .type)

theorem isUndefinedResult_fault (fault : Fault) :
    (Failure.fault fault).isUndefinedResult = true := by
  cases fault <;> rfl

end Failure

abbrev Attempt :=
  Except Failure

theorem Attempt.ok_bind {α β : Type} (a : α) (next : α → Attempt β) :
    (Except.ok a >>= next) = next a :=
  rfl

namespace Prelude

def attemptResult (handlers : Prelude) (head : Head) (args : List Number) :
    Attempt (Option Number) :=
  match handlers.find? head.key with
  | none => .ok none
  | some handler =>
    match (handler args).mapError Failure.fault with
    | .ok outcome => .ok (outcome.map Outcome.toNumber)
    | .error failure => if failure.isUndefinedResult then .ok (some .nan) else .error failure

def attemptValue (handlers : Prelude) : Expr → Attempt (Option Number)
  | .node head args =>
    match args.mapM Expr.literal? with
    | some numbers => handlers.attemptResult head numbers
    | none => .ok none
  | _ => .ok none

theorem attemptResult_eq (handlers : Prelude) (head : Head) (args : List Number) :
    handlers.attemptResult head args = .ok (handlers.result? head args) := by
  unfold attemptResult result?
  cases handlers.find? head.key with
  | none => rfl
  | some handler =>
    cases evaluated : handler args with
    | ok outcome => simp [evaluated, Except.mapError]
    | error fault => simp [evaluated, Except.mapError, Failure.isUndefinedResult_fault]

theorem attemptValue_eq (handlers : Prelude) (e : Expr) :
    handlers.attemptValue e = .ok (handlers.nodeValue? e) := by
  cases e with
  | node head args =>
    cases numbers : args.mapM Expr.literal? with
    | none => simp [attemptValue, nodeValue?, literalValue?, numbers]
    | some numbers' => simp [attemptValue, nodeValue?, literalValue?, numbers, attemptResult_eq]
  | _ => rfl

end Prelude

namespace Expr

def attemptNode (head : Head) (args : List Expr) : Attempt Expr :=
  ((node head []).withChildren (args.map .expr)).mapError .error

def attempt (leaf : Expr → Attempt Expr) (finish : Expr → Attempt Expr) : Expr → Attempt Expr :=
  bottomUp leaf fun head parts => do
    let args ← parts.mapM id
    let e ← attemptNode head args
    finish e

def attemptSubstitute (bindings : Bindings) : Expr → Attempt Expr :=
  attempt
    (fun
      | .var name => .ok (bindings.lookup name)
      | e => .ok e)
    .ok

def attemptPass (handlers : Prelude) (contract : Expr → Attempt Expr) : Expr → Attempt Expr :=
  attempt contract fun e => do
    match ← handlers.attemptValue e with
    | some n => return .literal n
    | none => contract e

end Expr

open SymbolicSimplifier.Expr

def Rule.attempt (rule : Rule) (e : Expr) : Attempt Expr := do
  let outcome ← (MatchOutcome.thenMatch (some .empty) (.expr rule.pattern) e).mapError .error
  match outcome with
  | some bindings => rule.replacement.attemptSubstitute bindings
  | none => return e

def Yields (attempted : Attempt Expr) (e : Expr) : Prop :=
  attempted = .ok e ∧ e.isWellFormed = true

namespace Expr

theorem attemptNode_eq_ok {head : Head} {args : List Expr}
    (formed : (node head args).isWellFormed = true) :
    attemptNode head args = .ok (.node head args) := by
  rw [attemptNode, withChildren_eq_ok formed]
  rfl

theorem attempt_node (leaf finish : Expr → Attempt Expr) (head : Head) (args : List Expr) :
    (node head args).attempt leaf finish = (do
      let args ← (args.map (attempt leaf finish)).mapM id
      let e ← attemptNode head args
      finish e) :=
  bottomUp_node _ _ head args

theorem attempt_yields {leaf finish : Expr → Attempt Expr} {leaf' : Expr → Expr}
    {node' : Head → List Expr → Expr}
    (leaves : ∀ e, e.IsLeaf → e.isWellFormed = true → Yields (leaf e) (leaf' e))
    (nodes : ∀ head args, (node head args).isWellFormed = true →
      Yields (finish (.node head args)) (node' head args))
    {e : Expr} (formed : e.isWellFormed = true) :
    Yields (e.attempt leaf finish) (e.bottomUp leaf' node') := by
  induction e using Expr.induction with
  | node head args ih =>
    obtain ⟨⟨named, admitted⟩, args'⟩ := (isWellFormed_node ..).mp formed
    have parts :
        (args.map (attempt leaf finish)).mapM id = .ok (args.map (bottomUp leaf' node')) := by
      apply mapM_eq_ok
      rw [List.forall₂_map_left_iff, List.forall₂_map_right_iff]
      exact List.forall₂_same.mpr fun a member => (ih a member (args' a member)).1
    have rebuilt : (node head (args.map (bottomUp leaf' node'))).isWellFormed = true := by
      rw [isWellFormed_node, List.length_map]
      refine ⟨⟨named, admitted⟩, ?_⟩
      simpa using fun a member => (ih a member (args' a member)).2
    rw [attempt_node, parts, bottomUp_node, Attempt.ok_bind, attemptNode_eq_ok rebuilt,
      Attempt.ok_bind]
    exact nodes head _ rebuilt
  | _ => exact leaves _ (by simp) formed

theorem attemptSubstitute_yields {bindings : Bindings}
    (bound : ∀ name value, bindings.find? name = some value → value.isWellFormed = true)
    {e : Expr} (formed : e.isWellFormed = true) :
    Yields (e.attemptSubstitute bindings) (e.substitute bindings) := by
  refine attempt_yields ?leaves (fun head args formed => ⟨rfl, formed⟩) formed
  case leaves =>
    intro e leaf formed
    cases e with
    | var name =>
      refine ⟨rfl, ?_⟩
      change (bindings.lookup name).isWellFormed = true
      unfold Bindings.lookup
      cases found : bindings.find? name with
      | none => exact formed
      | some value => exact bound name value found
    | node head args => exact absurd rfl (leaf head args)
    | _ => exact ⟨rfl, formed⟩

theorem attemptPass_yields {handlers : Prelude} {attempted : Expr → Attempt Expr}
    {contract : Expr → Expr}
    (contracts : ∀ e, e.isWellFormed = true → Yields (attempted e) (contract e))
    {e : Expr} (formed : e.isWellFormed = true) :
    Yields (e.attemptPass handlers attempted) (e.pass handlers contract) := by
  refine attempt_yields (fun e _ => contracts e) ?nodes formed
  case nodes =>
    intro head args formed
    rw [Prelude.attemptValue_eq, Attempt.ok_bind, passNode]
    change Yields (match handlers.literalValue? head args with | some n => _ | none => _) _
    cases handlers.literalValue? head args with
    | none => exact contracts _ formed
    | some n => exact ⟨rfl, rfl⟩

end Expr

namespace Rule

def IsWellFormed (rule : Rule) : Prop :=
  rule.pattern.isWellFormed = true ∧ rule.replacement.isWellFormed = true

theorem attempt_yields {rule : Rule} (rules : rule.IsWellFormed) {e : Expr}
    (formed : e.isWellFormed = true) : Yields (rule.attempt e) (rule.contract e) := by
  have outcome : MatchOutcome.thenMatch (some .empty) (.expr rule.pattern) e =
      .ok (rule.pattern.match? e) := rfl
  rw [attempt, outcome, contract, contract?]
  cases matched : rule.pattern.match? e with
  | none => exact ⟨rfl, formed⟩
  | some bindings =>
    refine attemptSubstitute_yields ?_ rules.2
    intro name value found
    have inside : Subterm value e :=
      (find?_of_matchFrom matched found).resolve_left (by simp [OrderedMap.find?_empty])
    exact isWellFormed_of_subterm inside formed

theorem attemptPass_yields {rule : Rule} (rules : rule.IsWellFormed) (handlers : Prelude) {e : Expr}
    (formed : e.isWellFormed = true) :
    Yields (e.attemptPass handlers rule.attempt) (rule.rewrite handlers e) :=
  Expr.attemptPass_yields (fun _ => attempt_yields rules) formed

end Rule

theorem Expr.attemptFold_yields (handlers : Prelude) {e : Expr} (formed : e.isWellFormed = true) :
    Yields (e.attemptPass handlers .ok) (e.fold handlers) :=
  attemptPass_yields (fun _ formed => ⟨rfl, formed⟩) formed

end SymbolicSimplifier
