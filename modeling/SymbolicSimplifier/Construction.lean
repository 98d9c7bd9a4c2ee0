import SymbolicSimplifier.Error

set_option autoImplicit false

namespace SymbolicSimplifier

namespace Value

def lift (value : Value) : Except Error Expr :=
  match value with
  | .expr e => .ok e
  | other =>
    match other.number? with
    | some n => .ok (.literal n)
    | none => .error (.notLiftable other)

def asOperand : Value → Except Error Expr
  | .expr e => .ok e
  | other => .error (.operandNotExpr other)

def asArgument : Value → Except Error Expr
  | .expr e => .ok e
  | other => .error (.argumentNotExpr other)

def asName (owner : Owner) : Value → Except Error String
  | .text name => if name.isEmpty then .error (.nameEmpty owner) else .ok name
  | other => .error (.nameNotText owner other)

def asKey : Value → Except Error String
  | .text name => .ok name
  | .expr (.var name) => .ok name
  | other => .error (.badKey other)

def asPattern : Value → Except Error Expr
  | .expr e => .ok e
  | other => .error (.patternNotExpr other)

def asLimit (value : Value) : Except Error Nat :=
  match value with
  | .number (.int n) => if 0 < n then .ok n.toNat else .error (.badLimit value)
  | _ => .error (.badLimit value)

end Value

namespace Expr

def ofNumber (value : Value) : Except Error Expr :=
  match value.number? with
  | some n => .ok (.literal n)
  | none => .error (.notNumeric .literal value)

def ofConstant (name value : Value) : Except Error Expr := do
  let name ← name.asName .namedConstant
  match value with
  | .number n => return .named name n
  | other => throw (.notNumeric .namedConstant other)

def ofVariable (name : Value) : Except Error Expr := do
  return .var (← name.asName .var)

def ofUnary (symbol : String) (operand : Value) : Except Error Expr :=
  match UnaryOp.ofSymbol? symbol with
  | none => .error (.unknownUnary symbol)
  | some op => return .unary op (← operand.asOperand)

def ofBinary (symbol : String) (left right : Value) : Except Error Expr :=
  match BinaryOp.ofSymbol? symbol with
  | none => .error (.unknownBinary symbol)
  | some op => do
    let left ← left.asOperand
    let right ← right.asOperand
    return .binary op left right

def ofFunction (name : Value) (args : List Value) : Except Error Expr := do
  let name ← name.asName .function
  if args.isEmpty then throw (.noArguments name)
  return .apply name (← args.mapM Value.asArgument)

def ofCall (name : Value) (args : List Value) : Except Error Expr := do
  let name ← name.asName .function
  let args ← args.mapM Value.lift
  if args.isEmpty then throw (.noArguments name)
  return .apply name args

def ofOperator (symbol : String) (operands : List Value) : Except Error Expr := do
  let operands ← operands.mapM Value.lift
  match operands with
  | [operand] => ofUnary symbol (.expr operand)
  | [left, right] => ofBinary symbol (.expr left) (.expr right)
  | other => throw (.operandCount symbol other.length)

def ofEquation (left : Expr) (right : Value) : Except Error Expr := do
  return .binary .eq left (← right.lift)

def swapped : BinaryOp → Option BinaryOp
  | .lt => some .gt
  | .le => some .ge
  | .gt => some .lt
  | .ge => some .le
  | _ => none

-- An operator between an expression and an expression or number. With a number on the left, a
-- comparison is turned around.
def ofMixed (op : BinaryOp) (left right : Value) : Except Error Expr :=
  match left, right with
  | .expr left, .expr right => .ok (.binary op left right)
  | .expr left, right =>
    match right.number? with
    | some n => .ok (.binary op left (.literal n))
    | none => .error .unsupportedOperand
  | left, .expr right =>
    match left.number? with
    | some n =>
      match swapped op with
      | some op => .ok (.binary op right (.literal n))
      | none => .ok (.binary op (.literal n) right)
    | none => .error .unsupportedOperand
  | _, _ => .error .unsupportedOperand

def ofMixedSymbol (symbol : String) (left right : Value) : Except Error Expr :=
  match BinaryOp.ofSymbol? symbol with
  | some op => ofMixed op left right
  | none => .error (.unknownBinary symbol)

def ofPrefixed (symbol : String) (operand : Value) : Except Error Expr :=
  match operand with
  | .expr _ => ofUnary symbol operand
  | _ => .error .unsupportedOperand

def withChildren (e : Expr) (children : List Value) : Except Error Expr :=
  match e with
  | .node (.unary op) _ =>
    match children with
    | [operand] => ofUnary op.symbol operand
    | _ => .error .childCount
  | .node (.binary op) _ =>
    match children with
    | [left, right] => ofBinary op.symbol left right
    | _ => .error .childCount
  | .node (.function name) _ => ofFunction (.text name) children
  | leaf => .ok leaf

end Expr

end SymbolicSimplifier
