import SymbolicSimplifier.Construction
import SymbolicSimplifier.Expr.Display
import SymbolicSimplifier.Matching
import SymbolicSimplifier.Substitution

set_option autoImplicit false

namespace SymbolicSimplifier

structure Rule where
  pattern : Expr
  replacement : Expr
  name : Option String
  description : Option String
deriving Inhabited

def anonymousLabel : String :=
  "<anonymous>"

def given? (text : Option String) : Option String :=
  text.filter (· != "")

namespace Rule

def title? (rule : Rule) : Option String :=
  given? rule.name

def label (rule : Rule) : String :=
  rule.title?.getD anonymousLabel

def same (a b : Rule) : Bool :=
  a.pattern.same b.pattern && a.replacement.same b.replacement && a.name == b.name &&
    a.description == b.description

def ofValues (pattern replacement : Value) (name description : Option String) :
    Except Error Rule := do
  let pattern ← pattern.lift
  let replacement ← replacement.lift
  return ⟨pattern, replacement, name, description⟩

def heading (rule : Rule) : String :=
  match given? rule.description with
  | some description => "@" ++ rule.label ++ " \"" ++ description ++ "\""
  | none => "@" ++ rule.label

def display? (rule : Rule) : Option String := do
  let pattern ← rule.pattern.display?
  let replacement ← rule.replacement.display?
  return rule.heading ++ ": " ++ pattern ++ " => " ++ replacement

def contract? (rule : Rule) (e : Expr) : Option Expr :=
  (rule.pattern.match? e).map fun bindings => rule.replacement.substitute bindings

end Rule

end SymbolicSimplifier
