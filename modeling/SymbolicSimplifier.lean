import SymbolicSimplifier.Mapping
import SymbolicSimplifier.MatchOutcome
import SymbolicSimplifier.Proofs.Display.Full
import SymbolicSimplifier.Proofs.Display.Grouping
import SymbolicSimplifier.Proofs.Display.LeadingMinus
import SymbolicSimplifier.Proofs.Display.UnaryPlus
import SymbolicSimplifier.Proofs.Expr.Congruence
import SymbolicSimplifier.Proofs.Folding.Evaluation
import SymbolicSimplifier.Proofs.Folding.Finite
import SymbolicSimplifier.Proofs.Folding.Substitution
import SymbolicSimplifier.Proofs.Matching.Entries
import SymbolicSimplifier.Proofs.Matching.Instances
import SymbolicSimplifier.Proofs.Rational.Soundness
import SymbolicSimplifier.Proofs.Rewriting.Contractions
import SymbolicSimplifier.Proofs.Rule.Collecting
import SymbolicSimplifier.Proofs.Rule.Lookup
import SymbolicSimplifier.Proofs.Simplifier.Equality
import SymbolicSimplifier.Proofs.Simplifier.Failure
import SymbolicSimplifier.Proofs.Simplifier.Logging
import SymbolicSimplifier.Proofs.Simplifier.Preemption
import SymbolicSimplifier.Proofs.Simplifier.Renaming
import SymbolicSimplifier.Proofs.Simplifier.Replay
import SymbolicSimplifier.Proofs.Simplifier.Soundness
import SymbolicSimplifier.Proofs.Simplifier.Statistics
import SymbolicSimplifier.Proofs.Simplifier.Symbols
import SymbolicSimplifier.Proofs.Simplifier.ZeroDivisor
import SymbolicSimplifier.Proofs.Simplifier.ZeroPower
import SymbolicSimplifier.Proofs.Substitution.Composition
import SymbolicSimplifier.Proofs.Substitution.Dependence
import SymbolicSimplifier.Rule.Builder
import SymbolicSimplifier.Simplifier.Log
import SymbolicSimplifier.Simplifier.Request
import SymbolicSimplifier.Simplifier.Trace
