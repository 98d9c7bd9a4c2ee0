import SymbolicSimplifier.Bindings

set_option autoImplicit false

namespace SymbolicSimplifier

namespace Expr

def substitute (bindings : Bindings) : Expr → Expr :=
  bottomUp
    (fun
      | .var name => bindings.lookup name
      | e => e)
    .node

theorem substitute_var (bindings : Bindings) (name : String) :
    (Expr.var name).substitute bindings = bindings.lookup name :=
  rfl

theorem substitute_node (bindings : Bindings) (head : Head) (args : List Expr) :
    (Expr.node head args).substitute bindings = .node head (args.map (substitute bindings)) :=
  bottomUp_node _ _ head args

end Expr

end SymbolicSimplifier
