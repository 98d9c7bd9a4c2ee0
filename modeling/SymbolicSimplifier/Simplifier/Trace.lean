import SymbolicSimplifier.Simplifier.Run

set_option autoImplicit false

namespace SymbolicSimplifier

structure Trace where
  initial : Option Expr
  final : Option Expr
  steps : List Step

inductive TraceStyle where
  | verbose
  | compact
  | rules
  | chain
deriving DecidableEq

namespace TraceStyle

def ofName (name : String) : Except Error TraceStyle :=
  match name with
  | "verbose" => .ok .verbose
  | "compact" => .ok .compact
  | "rules" => .ok .rules
  | "chain" => .ok .chain
  | _ => .error (.unknownStyle name)

end TraceStyle

def Run.trace (run : Run) : Trace :=
  ⟨some run.initial, some run.final, run.steps⟩

def displayOrNone? : Option Expr → Option String
  | some e => e.display?
  | none => some "None"

structure StepRecord where
  index : Int
  name : String
  description : Option String
  before : String
  after : String
deriving DecidableEq

structure TraceRecord where
  initial : String
  final : String
  steps : List StepRecord
deriving DecidableEq

namespace Step

-- Steps of unnamed rules are named after the position of the rule.
def name (step : Step) : String :=
  match step.rule with
  | none => "fold"
  | some rule => rule.title?.getD ("rule[" ++ toString step.index ++ "]")

def description (step : Step) : Option String :=
  step.rule.bind (·.description)

def describe? (step : Step) : Option String := do
  let before ← step.before.display?
  let after ← step.after.display?
  return step.name ++ ": " ++ before ++ " → " ++ after

def record? (step : Step) : Option StepRecord := do
  let before ← step.before.display?
  let after ← step.after.display?
  return ⟨step.index, step.name, step.description, before, after⟩

end Step

namespace Trace

def stepNames (trace : Trace) : List String :=
  trace.steps.map Step.name

def length (trace : Trace) : Nat :=
  trace.steps.length

def nameCounts (trace : Trace) : List (String × Nat) :=
  (OrderedMap.tally trace.stepNames).entries

def mostUsed (best : String × Nat) : List (String × Nat) → String × Nat
  | [] => best
  | entry :: rest => mostUsed (if best.2 < entry.2 then entry else best) rest

def summary (trace : Trace) : String :=
  match trace.nameCounts with
  | [] => "No rewriting performed"
  | entry :: rest =>
    let (name, uses) := mostUsed entry rest
    toString trace.length ++ " steps using " ++ toString (rest.length + 1) ++
      " unique rules. Most used: " ++ name ++ " (" ++ toString uses ++ "x)"

def verboseLines? : Nat → List Step → Option (List String)
  | _, [] => some []
  | number, step :: steps => do
    let text ← step.describe?
    let rest ← verboseLines? (number + 1) steps
    let note :=
      match given? step.description with
      | some description => " (" ++ description ++ ")"
      | none => ""
    return ("  " ++ toString number ++ ". " ++ text ++ note) :: rest

def chainLines? : List Step → Option (List String)
  | [] => some []
  | step :: steps => do
    let after ← step.after.display?
    let rest ← chainLines? steps
    return ("  --(" ++ step.name ++ ")-->") :: after :: rest

def lines (texts : List String) : String :=
  "\n".intercalate texts

def verbose? (trace : Trace) : Option String := do
  let initial ← displayOrNone? trace.initial
  let steps ← verboseLines? 1 trace.steps
  let final ← displayOrNone? trace.final
  return lines (("Initial: " ++ initial) :: steps ++ ["Final: " ++ final])

def compact? (trace : Trace) : Option String := do
  let initial ← displayOrNone? trace.initial
  let final ← displayOrNone? trace.final
  return initial ++ " --[" ++ ", ".intercalate trace.stepNames ++ "]--> " ++ final

def rulesText (trace : Trace) : String :=
  (given? (some (" -> ".intercalate trace.stepNames))).getD "(no rules applied)"

def chain? (trace : Trace) : Option String := do
  let initial ← displayOrNone? trace.initial
  let steps ← chainLines? trace.steps
  return lines (initial :: steps)

def format? (trace : Trace) : TraceStyle → Option String
  | .verbose => trace.verbose?
  | .compact => trace.compact?
  | .rules => some trace.rulesText
  | .chain => trace.chain?

def record? (trace : Trace) : Option TraceRecord := do
  let initial ← displayOrNone? trace.initial
  let final ← displayOrNone? trace.final
  let steps ← trace.steps.mapM Step.record?
  return ⟨initial, final, steps⟩

end Trace

end SymbolicSimplifier
