import SymbolicSimplifier.Rule.Source
import SymbolicSimplifier.Simplifier.Run

set_option autoImplicit false

namespace SymbolicSimplifier

namespace Simplifier

def ofParts (source : Option RuleSource) (handlers : Option Prelude) (limit : Option Value) :
    Except Error Simplifier := do
  let rules ← (source.map RuleSource.toTable).getD (.ok Identities.standard)
  let stepLimit ← (limit.map Value.asLimit).getD (.ok standardLimit)
  return ⟨rules, handlers.getD .operators, stepLimit⟩

def extendFrom (simplifier : Simplifier) : Option RuleSource → Except Error Simplifier
  | some source => simplifier.extend <$> source.toTable
  | none => .error .noSource

def runWithin (simplifier : Simplifier) (depth : Nat) (value : Value) (limit : Option Value) :
    Except Error Run := do
  let limit ← (limit.map Value.asLimit).getD (.ok simplifier.stepLimit)
  let e ← value.lift
  return simplifier.run depth limit e

def runOn (simplifier : Simplifier) (value : Value) (limit : Option Value) : Except Error Run :=
  simplifier.runWithin standardDepth value limit

end Simplifier

end SymbolicSimplifier
