import SymbolicSimplifier.Simplifier.Run

set_option autoImplicit false

namespace SymbolicSimplifier

inductive LogLevel where
  | debug
  | warning
deriving DecidableEq

structure LogLine where
  level : LogLevel
  text : String
deriving DecidableEq

namespace Step

def logLabel (step : Step) : String :=
  (step.rule.map Rule.label).getD "fold"

def logLine? (step : Step) : Option LogLine := do
  let before ← step.before.display?
  let after ← step.after.display?
  return ⟨.debug, step.logLabel ++ ": " ++ before ++ " -> " ++ after⟩

end Step

namespace Run

def closingLines (run : Run) : List (Option LogLine) :=
  let count := toString run.length
  match run.ending with
  | .settled => []
  | .limited next =>
    let warning := run.final.display?.map fun text =>
      ⟨.warning, "No fixed point after " ++ count ++ " steps: " ++ text⟩
    [next.logLine?, warning]
  | .tooDeep => [some ⟨.warning, "Expression too deep to simplify after " ++ count ++ " steps"⟩]

-- The lines of the log in order; one that needs an integer without a text is missing.
def log (run : Run) : List (Option LogLine) :=
  run.steps.map Step.logLine? ++ run.closingLines

def writtenLog (run : Run) : List LogLine :=
  (run.log.takeWhile Option.isSome).filterMap id

-- For a handler that formats every line at once and lets a failure through. With one that keeps the
-- failure to itself the line is lost and the run goes on.
def loggedResult (run : Run) : Except Error Expr :=
  if run.log.all Option.isSome then run.result else .error .unprintable

end Run

end SymbolicSimplifier
