import SymbolicSimplifier.Expr.Basic
import SymbolicSimplifier.Prelude

set_option autoImplicit false

namespace SymbolicSimplifier

def Outcome.toNumber : Outcome → Number
  | .number n => if n.isInfinite then .nan else n
  | .truth b => .int (if b then 1 else 0)
  | .complex _ => .nan

namespace Prelude

def result? (handlers : Prelude) (head : Head) (args : List Number) : Option Number :=
  match handlers.find? head.key with
  | none => none
  | some handler =>
    match handler args with
    | .error _ => some .nan
    | .ok outcome => outcome.map Outcome.toNumber

def literalValue? (handlers : Prelude) (head : Head) (args : List Expr) : Option Number := do
  let numbers ← args.mapM Expr.literal?
  handlers.result? head numbers

def nodeValue? (handlers : Prelude) : Expr → Option Number
  | .node head args => handlers.literalValue? head args
  | _ => none

def settle (handlers : Prelude) (head : Head) (args : List Expr) : Expr :=
  match handlers.literalValue? head args with
  | some n => .literal n
  | none => .node head args

end Prelude

namespace Expr

def fold (handlers : Prelude) : Expr → Expr :=
  bottomUp id handlers.settle

theorem fold_node (handlers : Prelude) (head : Head) (args : List Expr) :
    (Expr.node head args).fold handlers = handlers.settle head (args.map (fold handlers)) :=
  bottomUp_node _ _ head args

def evaluate? (handlers : Prelude) (e : Expr) : Option Number :=
  (e.fold handlers).literal?

-- Nothing is folded in an expression that is nested too deeply to go through.
def foldWithin? (depth : Nat) (handlers : Prelude) (e : Expr) : Option Expr :=
  if e.deeperThan depth then none else some (e.fold handlers)

def evaluateWithin? (depth : Nat) (handlers : Prelude) (e : Expr) : Option (Option Number) :=
  (e.foldWithin? depth handlers).map literal?

theorem evaluateWithin?_eq_some_iff {depth : Nat} {handlers : Prelude} {e : Expr}
    {value : Option Number} :
    e.evaluateWithin? depth handlers = some value ↔
      e.deeperThan depth = false ∧ e.evaluate? handlers = value := by
  unfold evaluateWithin? foldWithin? evaluate?
  cases e.deeperThan depth <;> simp

end Expr

end SymbolicSimplifier
