import SymbolicSimplifier.Number.Elementary
import SymbolicSimplifier.Number.Power
import SymbolicSimplifier.OrderedMap

set_option autoImplicit false

namespace SymbolicSimplifier

inductive Operation where
  | unary (f : Number → Except Fault Outcome)
  | binary (f : Outcome → Number → Except Fault Outcome)

namespace Operation

def applyOne : Operation → Number → Except Fault Outcome
  | .unary f, a => f a
  | .binary _, _ => .error .operandType

def applyTwo : Operation → Outcome → Number → Except Fault Outcome
  | .binary f, a, b => f a b
  | .unary _, _, _ => .error .operandType

def ofUnary (f : Number → Except Fault Number) : Operation :=
  .unary fun a => .number <$> f a

-- Truth values count as zero and one; complex numbers take part in powers only.
def ofBinary (f : Number → Number → Except Fault Number) : Operation :=
  .binary fun a b =>
    match a with
    | .number a => .number <$> f a b
    | .truth a => .number <$> f (.int (if a then 1 else 0)) b
    | .complex _ => .error .operandType

def ofRelation (holds : Number → Number → Bool) : Operation :=
  .binary fun a b =>
    match a with
    | .number a => .ok (.truth (holds a b))
    | .truth a => .ok (.truth (holds (.int (if a then 1 else 0)) b))
    | .complex _ => .error .operandType

def add : Operation :=
  ofBinary Number.add

def sub : Operation :=
  ofBinary Number.sub

def mul : Operation :=
  ofBinary Number.mul

def pow : Operation :=
  .binary Outcome.pow

def eq : Operation :=
  ofRelation Number.equals

def lt : Operation :=
  ofRelation Number.less

def le : Operation :=
  ofRelation Number.atMost

def gt : Operation :=
  ofRelation fun a b => b.less a

def ge : Operation :=
  ofRelation fun a b => b.atMost a

def and : Operation :=
  ofBinary (Number.bitwise Bits.and)

def or : Operation :=
  ofBinary (Number.bitwise Bits.or)

def max : Operation :=
  ofBinary fun a b => .ok (a.max b)

def min : Operation :=
  ofBinary fun a b => .ok (a.min b)

def invert : Operation :=
  ofUnary Number.invert

def neg : Operation :=
  ofUnary fun a => .ok a.neg

def abs : Operation :=
  ofUnary fun a => .ok a.abs

def log : Operation :=
  ofUnary Number.log

def exp : Operation :=
  ofUnary Number.exp

def sqrt : Operation :=
  ofUnary Number.sqrt

def sin : Operation :=
  ofUnary Number.sin

def cos : Operation :=
  ofUnary Number.cos

end Operation

/-- The result for the numbers a head is applied to, or nothing if their count does not fit. -/
abbrev Handler :=
  List Number → Except Fault (Option Outcome)

namespace Handler

def chain (op : Operation) : Handler
  | [] => .ok none
  | a :: rest => some <$> rest.foldlM op.applyTwo (.number a)

def unary (op : Operation) : Handler
  | [a] => some <$> op.applyOne a
  | _ => .ok none

def binary (op : Operation) : Handler
  | [a, b] => some <$> op.applyTwo (.number a) b
  | _ => .ok none

def minus : Handler
  | [a] => .ok (some (.number a.neg))
  | [a, b] => (some ∘ .number) <$> a.sub b
  | _ => .ok none

def quotient : Handler
  | [a, b] => (some ∘ .number) <$> a.div b
  | _ => .ok none

end Handler

abbrev Prelude :=
  OrderedMap Handler

namespace Prelude

def arithmetic : Prelude :=
  .ofList [
    ("+", .chain .add),
    ("-", .minus),
    ("*", .chain .mul),
    ("/", .quotient),
    ("**", .binary .pow)]

def comparison : Prelude :=
  .ofList [
    ("==", .binary .eq),
    ("<", .binary .lt),
    ("<=", .binary .le),
    (">", .binary .gt),
    (">=", .binary .ge)]

def boolean : Prelude :=
  .ofList [
    ("&", .binary .and),
    ("|", .binary .or),
    ("~", .unary .invert)]

def operators : Prelude :=
  (arithmetic.union comparison).union boolean

def mathematics : Prelude :=
  operators.union <| .ofList [
    ("log", .unary .log),
    ("exp", .unary .exp),
    ("sqrt", .unary .sqrt),
    ("sin", .unary .sin),
    ("cos", .unary .cos)]

end Prelude

end SymbolicSimplifier
