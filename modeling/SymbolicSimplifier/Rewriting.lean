import SymbolicSimplifier.Folding
import SymbolicSimplifier.Rule.Basic

set_option autoImplicit false

namespace SymbolicSimplifier

namespace Rule

def contract (rule : Rule) (e : Expr) : Expr :=
  (rule.contract? e).getD e

def rewriteNode (handlers : Prelude) (rule : Rule) (head : Head) (args : List Expr) : Expr :=
  match handlers.literalValue? head args with
  | some n => .literal n
  | none => rule.contract (.node head args)

def rewrite (handlers : Prelude) (rule : Rule) : Expr → Expr :=
  Expr.bottomUp rule.contract (rule.rewriteNode handlers)

theorem rewrite_node (handlers : Prelude) (rule : Rule) (head : Head) (args : List Expr) :
    rule.rewrite handlers (.node head args) =
      rule.rewriteNode handlers head (args.map (rule.rewrite handlers)) :=
  Expr.bottomUp_node _ _ head args

end Rule

namespace Expr

structure Search where
  folded : Expr
  found : Bool

def searchNode (handlers : Prelude) (pattern : Expr) (head : Head) (parts : List Search) :
    Search :=
  let args := parts.map (·.folded)
  let below := parts.any (·.found)
  match handlers.literalValue? head args with
  | some n => ⟨.literal n, below⟩
  | none => ⟨.node head args, below || (pattern.match? (.node head args)).isSome⟩

def occursIn (handlers : Prelude) (pattern e : Expr) : Bool :=
  (e.bottomUp (fun leaf => ⟨leaf, (pattern.match? leaf).isSome⟩)
    (searchNode handlers pattern)).found

/-- One pass with a pattern and a replacement that have not been checked. The replacement is
looked at only if the pattern matches. -/
def rewriteWith (handlers : Prelude) (e : Expr) (pattern replacement : Value) :
    Except Error Expr := do
  let pattern ← pattern.asPattern
  if pattern.occursIn handlers e then
    let replacement ← replacement.lift
    return (Rule.mk pattern replacement none none).rewrite handlers e
  else
    return e.fold handlers

end Expr

end SymbolicSimplifier
