import SymbolicSimplifier.Number.Basic

set_option autoImplicit false

namespace SymbolicSimplifier

inductive Fault where
  | zeroDivision
  | overflow
  | domain
  | operandType
deriving DecidableEq

namespace Number

def toFloat : Number → Except Fault Float
  | .float x => .ok x
  | .int n => (Binary64.ofInt? n).elim (.error .overflow) .ok

def floating (f : Float → Float → Float) (a b : Number) : Except Fault Number := do
  let x ← a.toFloat
  let y ← b.toFloat
  return .float (f x y)

def add : Number → Number → Except Fault Number
  | .int a, .int b => .ok (.int (a + b))
  | a, b => floating Float.add a b

def sub : Number → Number → Except Fault Number
  | .int a, .int b => .ok (.int (a - b))
  | a, b => floating Float.sub a b

def mul : Number → Number → Except Fault Number
  | .int a, .int b => .ok (.int (a * b))
  | a, b => floating Float.mul a b

def neg : Number → Number
  | .int a => .int (-a)
  | .float x => .float x.neg

def abs : Number → Number
  | .int a => .int a.natAbs
  | .float x => .float x.abs

def isZero (n : Number) : Bool :=
  decide (n.exact = .finite 0)

def roundedQuotient (a b : Int) : Except Fault Number :=
  match Binary64.nearest? (decide (a < 0) != decide (b < 0)) a.natAbs b.natAbs with
  | some x => .ok (.float x)
  | none => .error .overflow

def div : Number → Number → Except Fault Number
  | .int a, .int b =>
    if b = 0 then .error .zeroDivision
    else if a % b = 0 then .ok (.int (a / b))
    else roundedQuotient a b
  | a, b => do
    let x ← a.toFloat
    let y ← b.toFloat
    if (Number.float y).isZero then .error .zeroDivision else .ok (.float (x / y))

def max (a b : Number) : Number :=
  if a.less b then b else a

def min (a b : Number) : Number :=
  if b.less a then b else a

end Number

namespace Bits

def without (m n : Nat) : Nat :=
  m - (m &&& n)

def and : Int → Int → Int
  | .ofNat m, .ofNat n => .ofNat (m &&& n)
  | .ofNat m, .negSucc n => .ofNat (without m n)
  | .negSucc m, .ofNat n => .ofNat (without n m)
  | .negSucc m, .negSucc n => .negSucc (m ||| n)

def or : Int → Int → Int
  | .ofNat m, .ofNat n => .ofNat (m ||| n)
  | .ofNat m, .negSucc n => .negSucc (without n m)
  | .negSucc m, .ofNat n => .negSucc (without m n)
  | .negSucc m, .negSucc n => .negSucc (m &&& n)

def not (a : Int) : Int :=
  -a - 1

end Bits

namespace Number

def bitwise (f : Int → Int → Int) : Number → Number → Except Fault Number
  | .int a, .int b => .ok (.int (f a b))
  | _, _ => .error .operandType

def invert : Number → Except Fault Number
  | .int a => .ok (.int (Bits.not a))
  | .float _ => .error .operandType

end Number

end SymbolicSimplifier
