import SymbolicSimplifier.Identities.Logarithm
import SymbolicSimplifier.Rewriting

set_option autoImplicit false

namespace SymbolicSimplifier

structure Simplifier where
  rules : RuleTable
  handlers : Prelude
  stepLimit : Nat

namespace Simplifier

def standardLimit : Nat :=
  1000

-- The nesting that a stack of a thousand calls is good for, when every level takes two of them.
def standardDepth : Nat :=
  495

def standard : Simplifier :=
  ⟨Identities.standard, .operators, standardLimit⟩

def extend (simplifier : Simplifier) (rules : RuleTable) : Simplifier :=
  ⟨simplifier.rules ++ rules, simplifier.handlers, simplifier.stepLimit⟩

def size (simplifier : Simplifier) : Nat :=
  simplifier.rules.size

def describe (simplifier : Simplifier) : String :=
  "Simplifier(" ++ toString simplifier.size ++ " rules)"

def hasStandardRules (simplifier : Simplifier) : Bool :=
  simplifier.rules.same Identities.standard

def firstMatch? (e : Expr) : List Rule → Option (Expr × Rule)
  | [] => none
  | rule :: rules =>
    match rule.contract? e with
    | some result => some (result, rule)
    | none => firstMatch? e rules

def contractRoot (simplifier : Simplifier) (e : Expr) : Expr × Option Rule :=
  match firstMatch? e simplifier.rules.rules with
  | some (result, rule) => (result, some rule)
  | none => (e, none)

def matching (simplifier : Simplifier) (e : Expr) : List (Rule × Bindings) :=
  simplifier.rules.rules.filterMap fun rule =>
    (rule.pattern.match? e).map fun bindings => (rule, bindings)

end Simplifier

end SymbolicSimplifier
