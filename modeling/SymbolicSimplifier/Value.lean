import SymbolicSimplifier.Expr.Basic
import SymbolicSimplifier.Number.Display
import SymbolicSimplifier.Text.Quoted

set_option autoImplicit false

namespace SymbolicSimplifier

inductive Value where
  | expr (e : Expr)
  | number (n : Number)
  | truth (b : Bool)
  | text (s : String)
  | absent
  | list (values : List Value)
  | tuple (values : List Value)
deriving Inhabited

def tupleText : List String → String
  | [item] => "(" ++ item ++ ",)"
  | items => "(" ++ ", ".intercalate items ++ ")"

def allDescribed : List (Option String) → Option (List String)
  | [] => some []
  | item :: items => do
    let text ← item
    let texts ← allDescribed items
    return text :: texts

namespace Expr

def describeLeaf? : Expr → Option String
  | .literal n => do
    let value ← n.describe?
    return "Literal(value=" ++ value ++ ")"
  | .named name n => do
    let value ← n.describe?
    return "NamedConstant(name=" ++ Text.quote name ++ ", value=" ++ value ++ ")"
  | .var name => some ("Variable(name=" ++ Text.quote name ++ ")")
  | .node _ _ => none

def describeNode (head : Head) (args : List String) : String :=
  match head, args with
  | .unary op, [operand] =>
    "UnaryOp(op=" ++ Text.quote op.symbol ++ ", operand=" ++ operand ++ ")"
  | .binary op, [left, right] =>
    "BinaryOp(op=" ++ Text.quote op.symbol ++ ", left=" ++ left ++ ", right=" ++ right ++ ")"
  | head, args =>
    "FunctionApplication(name=" ++ Text.quote head.key ++ ", args=" ++ tupleText args ++ ")"

def describe? : Expr → Option String :=
  bottomUp describeLeaf? (fun head args => (allDescribed args).map (describeNode head))

end Expr

namespace Value

mutual

def describe? : Value → Option String
  | .expr e => e.describe?
  | .number n => n.describe?
  | .truth b => some (if b then "True" else "False")
  | .text s => some (Text.quote s)
  | .absent => some "None"
  | .list values => do
    let items ← describeAll? values
    return "[" ++ ", ".intercalate items ++ "]"
  | .tuple values => do
    let items ← describeAll? values
    return tupleText items

def describeAll? : List Value → Option (List String)
  | [] => some []
  | value :: values => do
    let item ← value.describe?
    let items ← describeAll? values
    return item :: items

end

mutual

def isKey : Value → Bool
  | .list _ => false
  | .tuple values => areKeys values
  | _ => true

def areKeys : List Value → Bool
  | [] => true
  | value :: values => value.isKey && areKeys values

end

def number? : Value → Option Number
  | .number n => some n
  | .truth b => some (.int (if b then 1 else 0))
  | _ => none

mutual

def sameKey : Value → Value → Bool
  | .expr a, .expr b => a.same b
  | .text a, .text b => a == b
  | .absent, .absent => true
  | .tuple as, .tuple bs => sameKeys as bs
  | a, b =>
    match a.number?, b.number? with
    | some m, some n => m.equals n
    | _, _ => false

def sameKeys : List Value → List Value → Bool
  | [], [] => true
  | a :: as, b :: bs => a.sameKey b && sameKeys as bs
  | _, _ => false

end

end Value

end SymbolicSimplifier
