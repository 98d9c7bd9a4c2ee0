import SymbolicSimplifier.Simplifier.Basic

set_option autoImplicit false

namespace SymbolicSimplifier

/-- A change of the whole expression. A folding pass has index -1 and no rule. -/
structure Step where
  index : Int
  rule : Option Rule
  before : Expr
  after : Expr
deriving Inhabited

inductive Ending where
  | settled
  | limited (next : Step)
  | tooDeep

structure Run where
  initial : Expr
  steps : List Step
  final : Expr
  ending : Ending

namespace Simplifier

def firstChange? (handlers : Prelude) (e : Expr) : Int → List Rule → Option Step
  | _, [] => none
  | index, rule :: rules =>
    let after := rule.rewrite handlers e
    if after == e then firstChange? handlers e (index + 1) rules
    else some ⟨index, some rule, e, after⟩

def foldingStep? (handlers : Prelude) (e : Expr) : Option Step :=
  let after := e.fold handlers
  if after == e then none else some ⟨-1, none, e, after⟩

def advance? (simplifier : Simplifier) (e : Expr) : Option Step :=
  match firstChange? simplifier.handlers e 0 simplifier.rules.rules with
  | some step => some step
  | none => foldingStep? simplifier.handlers e

-- How deeply an expression may be nested is a matter of the stack, not of the simplifier.
def run (simplifier : Simplifier) (depth limit : Nat) (e : Expr) : Run :=
  if e.deeperThan depth then ⟨e, [], e, .tooDeep⟩
  else
    match simplifier.advance? e, limit with
    | none, _ => ⟨e, [], e, .settled⟩
    | some step, 0 => ⟨e, [], e, .limited step⟩
    | some step, limit + 1 =>
      let rest := run simplifier depth limit step.after
      ⟨e, step :: rest.steps, rest.final, rest.ending⟩

end Simplifier

namespace Run

def length (run : Run) : Nat :=
  run.steps.length

def result (run : Run) : Except Error Expr :=
  match run.ending with
  | .settled => .ok run.final
  | .limited _ => .error (.unsettled run.length run.final)
  | .tooDeep => .error (.tooDeep run.length)

end Run

namespace Simplifier

def simplify (simplifier : Simplifier) (depth : Nat) (e : Expr) : Except Error Expr :=
  (simplifier.run depth simplifier.stepLimit e).result

end Simplifier

end SymbolicSimplifier
