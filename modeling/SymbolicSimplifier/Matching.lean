import SymbolicSimplifier.Bindings

set_option autoImplicit false

namespace SymbolicSimplifier

namespace Expr

mutual

def matchFrom : Expr → Expr → Bindings → Option Bindings
  | .var name, e, bindings => bindings.bind? name e
  | .literal n, e, bindings => if (Expr.literal n).same e then some bindings else none
  | .named name n, e, bindings => if (Expr.named name n).same e then some bindings else none
  | .node head patterns, .node head' args, bindings =>
    if head = head' then matchAllFrom patterns args bindings else none
  | .node _ _, _, _ => none

def matchAllFrom : List Expr → List Expr → Bindings → Option Bindings
  | [], [], bindings => some bindings
  | pattern :: patterns, e :: es, bindings =>
    match matchFrom pattern e bindings with
    | some bindings => matchAllFrom patterns es bindings
    | none => none
  | _, _, _ => none

end

def match? (pattern e : Expr) : Option Bindings :=
  matchFrom pattern e .empty

end Expr

end SymbolicSimplifier
