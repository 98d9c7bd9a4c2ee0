set_option autoImplicit false

namespace SymbolicSimplifier

def twoTo (exponent : Nat) : Nat :=
  Nat.pow 2 exponent

inductive Binary64 where
  | finite (negative : Bool) (mantissa : Nat) (exponent : Int)
  | infinite (negative : Bool)
  | undefined
deriving DecidableEq

namespace Binary64

def hiddenBit : Nat :=
  0x10000000000000

def signBit : Nat :=
  0x8000000000000000

def leastExponent : Int :=
  -1074

def ofWord (word : Nat) : Binary64 :=
  let negative := decide (signBit ≤ word)
  let field := word / hiddenBit % 2048
  let fraction := word % hiddenBit
  if field = 2047 then
    if fraction = 0 then .infinite negative else .undefined
  else if field = 0 then .finite negative fraction leastExponent
  else .finite negative (hiddenBit + fraction) (leastExponent + field - 1)

def ofFloat (x : Float) : Binary64 :=
  ofWord x.toBits.toNat

def dyadic (mantissa : Nat) (exponent : Int) : Rat :=
  if mantissa = 0 then 0
  else if 0 ≤ exponent then ((mantissa * twoTo exponent.toNat : Nat) : Rat)
  else mkRat mantissa (twoTo (-exponent).toNat)

-- The quotient rounded to the nearest natural number, a half going to the even one.
def roundDiv (num den : Nat) : Nat :=
  let quotient := num / den
  let rest := num % den
  if 2 * rest < den then quotient
  else if den < 2 * rest then quotient + 1
  else quotient + quotient % 2

def scale (n : Nat) (shift : Int) : Nat :=
  n * twoTo shift.toNat

def unitExponent (num den : Nat) : Int :=
  let estimate : Int := (num.log2 : Int) - den.log2
  let leading :=
    if scale num (-estimate) < scale den estimate then estimate - 1 else estimate
  max (leading - 52) leastExponent

def nearestWord (num den : Nat) : Nat :=
  if num = 0 then 0
  else
    let unit := unitExponent num den
    (unit - leastExponent).toNat * hiddenBit + roundDiv (scale num (-unit)) (scale den unit)

def nearest? (negative : Bool) (num den : Nat) : Option Float :=
  let word := nearestWord num den
  if word < 2047 * hiddenBit then
    some (Float.ofBits (UInt64.ofNat (if negative then signBit + word else word)))
  else none

def ofInt? (n : Int) : Option Float :=
  nearest? (decide (n < 0)) n.natAbs 1

end Binary64

end SymbolicSimplifier
