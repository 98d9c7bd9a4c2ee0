import SymbolicSimplifier.Construction
import SymbolicSimplifier.Substitution

set_option autoImplicit false

namespace SymbolicSimplifier

namespace Bindings

def ofKeys (entries : List (Value × Expr)) : Except Error Bindings := do
  let named ← entries.mapM fun entry => do
    let name ← entry.1.asKey
    return (name, entry.2)
  return .ofList named

end Bindings

abbrev Mapping :=
  List (Value × Value)

namespace Mapping

def assign (key value : Value) : Mapping → Mapping
  | [] => [(key, value)]
  | entry :: rest =>
    if entry.1.sameKey key then (entry.1, value) :: rest else entry :: assign key value rest

def ofPairs (pairs : List (Value × Value)) : Except Error Mapping :=
  if pairs.all (·.1.isKey) then
    .ok (pairs.foldl (fun known pair => assign pair.1 pair.2 known) [])
  else .error .unusableKey

def lift (mapping : Mapping) : Except Error Bindings := do
  let named ← mapping.mapM fun entry => do
    let e ← entry.2.lift
    let name ← entry.1.asKey
    return (name, e)
  return .ofList named

def named (mapping : Mapping) : Except Error (OrderedMap Value) := do
  let entries ← mapping.mapM fun entry => do
    let name ← entry.1.asKey
    return (name, entry.2)
  return .ofList entries

end Mapping

namespace Expr

def rebuild (head : Head) (args : List (Except Error Value)) : Except Error Value := do
  let args ← args.mapM id
  let e ← (Expr.node head []).withChildren args
  return .expr e

def substituteValues (values : OrderedMap Value) : Expr → Except Error Value :=
  bottomUp
    (fun
      | .var name => .ok ((values.find? name).getD (.expr (.var name)))
      | e => .ok (.expr e))
    rebuild

end Expr

end SymbolicSimplifier
