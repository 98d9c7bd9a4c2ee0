import SymbolicSimplifier.Construction
import SymbolicSimplifier.Matching

set_option autoImplicit false

namespace SymbolicSimplifier

abbrev MatchOutcome :=
  Option Bindings

namespace MatchOutcome

def toBindings (outcome : MatchOutcome) : Bindings :=
  outcome.getD .empty

def find? (outcome : MatchOutcome) (key : Value) : Except Error (Option Expr) :=
  match outcome with
  | none => .ok none
  | some bindings => do
    let name ← key.asKey
    return bindings.find? name

def get (outcome : MatchOutcome) (key : Value) : Except Error Expr :=
  match outcome with
  | none => .error (.noMatchUnbound key)
  | some bindings => do
    let name ← key.asKey
    match bindings.find? name with
    | some e => return e
    | none => throw .unbound

def contains (outcome : MatchOutcome) (key : Value) : Bool :=
  match outcome, key.asKey with
  | some bindings, .ok name => bindings.contains name
  | _, _ => false

def same : MatchOutcome → MatchOutcome → Bool
  | some a, some b => Bindings.same a b
  | none, none => true
  | _, _ => false

def describe? : MatchOutcome → Option String
  | some bindings => Bindings.describe? bindings
  | none => some "NoMatch"

def assign (outcome : MatchOutcome) (key : Value) (e : Expr) : Except Error MatchOutcome :=
  match outcome with
  | none => .ok none
  | some bindings => do
    let name ← key.asKey
    return some (bindings.insert name e)

def bind (outcome : MatchOutcome) (name : String) (e : Expr) : MatchOutcome :=
  match outcome with
  | some bindings => bindings.bind? name e
  | none => none

def thenMatch (outcome : MatchOutcome) (pattern : Value) (e : Expr) :
    Except Error MatchOutcome :=
  match outcome with
  | none => .ok none
  | some bindings => do
    let pattern ← pattern.asPattern
    return pattern.matchFrom e bindings

def ofValues (pattern e : Value) : Except Error MatchOutcome := do
  let pattern ← pattern.lift
  let e ← e.lift
  return pattern.match? e

end MatchOutcome

end SymbolicSimplifier
