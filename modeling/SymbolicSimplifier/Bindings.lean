import SymbolicSimplifier.Expr.Display
import SymbolicSimplifier.OrderedMap
import SymbolicSimplifier.Text.Quoted

set_option autoImplicit false

namespace SymbolicSimplifier

abbrev Bindings :=
  OrderedMap Expr

namespace Bindings

def same (a b : Bindings) : Bool :=
  a.size == b.size &&
    a.entries.all fun entry =>
      match b.find? entry.1 with
      | some e => entry.2.same e
      | none => false

def lookup (bindings : Bindings) (name : String) : Expr :=
  (bindings.find? name).getD (.var name)

def bind? (bindings : Bindings) (name : String) (e : Expr) : Option Bindings :=
  match bindings.find? name with
  | none => some (bindings.insert name e)
  | some bound => if bound.same e then some bindings else none

def describeEntry? (entry : String × Expr) : Option String := do
  let text ← entry.2.display?
  return Text.quote entry.1 ++ ": " ++ Text.quote text

def describe? (bindings : Bindings) : Option String := do
  let entries ← bindings.entries.mapM describeEntry?
  return "Bindings(\x7b" ++ ", ".intercalate entries ++ "\x7d)"

end Bindings

end SymbolicSimplifier
