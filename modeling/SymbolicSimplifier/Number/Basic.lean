import SymbolicSimplifier.Binary64

set_option autoImplicit false

namespace SymbolicSimplifier

inductive Number where
  | int (value : Int)
  | float (value : Float)
deriving DecidableEq, Inhabited

inductive ExactValue where
  | finite (value : Rat)
  | infinite (negative : Bool)
  | undefined
deriving DecidableEq

namespace ExactValue

def less : ExactValue → ExactValue → Bool
  | .finite a, .finite b => decide (a < b)
  | .finite _, .infinite negative => !negative
  | .infinite negative, .finite _ => negative
  | .infinite a, .infinite b => a && !b
  | _, _ => false

end ExactValue

def Binary64.exact : Binary64 → ExactValue
  | .finite negative mantissa exponent =>
    let size := dyadic mantissa exponent
    .finite (if negative then -size else size)
  | .infinite negative => .infinite negative
  | .undefined => .undefined

namespace Number

def nan : Number :=
  .float (Float.ofBits 0x7ff8000000000000)

def exact : Number → ExactValue
  | .int n => .finite n
  | .float x => (Binary64.ofFloat x).exact

def same (a b : Number) : Bool :=
  decide (a.exact = b.exact)

def isNaN (n : Number) : Bool :=
  decide (n.exact = .undefined)

def isInfinite (n : Number) : Bool :=
  match n.exact with
  | .infinite _ => true
  | _ => false

def isNegative (n : Number) : Bool :=
  n.exact.less (.finite 0)

-- Numeric equality: a NaN equals nothing.
def equals (a b : Number) : Bool :=
  !a.isNaN && a.same b

def less (a b : Number) : Bool :=
  a.exact.less b.exact

def atMost (a b : Number) : Bool :=
  a.less b || a.equals b

end Number

end SymbolicSimplifier
