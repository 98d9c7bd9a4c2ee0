import SymbolicSimplifier.Binary64

set_option autoImplicit false

namespace SymbolicSimplifier

def tenTo (exponent : Nat) : Nat :=
  Nat.pow 10 exponent

structure Decimal where
  digits : Nat
  exponent : Int
deriving DecidableEq

namespace Decimal

def digitCount (n : Nat) : Nat :=
  (Nat.toDigits 10 n).length

def leadingExponent (num den : Nat) : Int :=
  if den ≤ num then (digitCount (num / den) : Int) - 1
  else
    let inverse := den / num
    let count := digitCount inverse
    if inverse * num = den ∧ inverse = tenTo (count - 1) then 1 - (count : Int)
    else -(count : Int)

structure Interval where
  lower : Nat
  upper : Nat
  closed : Bool

-- The numbers that round to `mantissa` times two to the `exponent`. At a power of two the spacing
-- below is half the spacing above.
def roundingInterval (mantissa : Nat) (exponent : Int) : Interval :=
  let below := if mantissa = Binary64.hiddenBit ∧ exponent ≠ Binary64.leastExponent then 1 else 2
  ⟨4 * mantissa - below, 4 * mantissa + 2, mantissa % 2 == 0⟩

def Interval.contains (interval : Interval) (num den : Nat) : Bool :=
  if interval.closed then
    decide (interval.lower * den ≤ num) && decide (num ≤ interval.upper * den)
  else
    decide (interval.lower * den < num) && decide (num < interval.upper * den)

-- The nearer neighbour of the number, among multiples of ten to the `exponent`, that lies in its
-- rounding interval. Numbers are numerators over `den`, in quarters of the last binary place.
def onGrid? (mantissa : Nat) (binaryExponent : Int) (exponent : Int) : Option Decimal :=
  let interval := roundingInterval mantissa binaryExponent
  let den := twoTo binaryExponent.toNat * tenTo (-exponent).toNat
  let value := 4 * mantissa * den
  let step := 4 * tenTo exponent.toNat * twoTo (-binaryExponent).toNat
  let lower := value / step
  let rest := value % step
  let inside (digits : Nat) : Bool := interval.contains (digits * step) den
  let upperFirst := decide (step < 2 * rest) || (step == 2 * rest && lower % 2 == 1)
  let first := if upperFirst then lower + 1 else lower
  let second := if upperFirst then lower else lower + 1
  if inside first then some ⟨first, exponent⟩
  else if inside second then some ⟨second, exponent⟩
  else none

/-- The shortest decimal for a positive number. Seventeen digits are always enough. -/
def shortest (mantissa : Nat) (exponent : Int) : Decimal :=
  let leading := leadingExponent (mantissa * twoTo exponent.toNat) (twoTo (-exponent).toNat)
  let found := (List.range 17).findSome? fun (more : Nat) =>
    onGrid? mantissa exponent (leading - more)
  found.getD ⟨mantissa, exponent⟩

end Decimal

end SymbolicSimplifier
