import SymbolicSimplifier.Number.Arithmetic

set_option autoImplicit false

namespace SymbolicSimplifier

namespace Number

def fractionAndExponent (n : Nat) : Float × Nat :=
  let bits := n.log2 + 1
  let mantissa := Binary64.roundDiv n (twoTo (bits - 53))
  if mantissa = 2 * Binary64.hiddenBit then (0.5, bits + 1)
  else (Float.ofScientific mantissa false 0 / 9007199254740992.0, bits)

def logNat (n : Nat) : Number :=
  match Binary64.ofInt? n with
  | some x => .float x.log
  | none =>
    let (fraction, exponent) := fractionAndExponent n
    .float (fraction.log + Float.log 2.0 * Float.ofScientific exponent false 0)

def log : Number → Except Fault Number
  | .int n => if n ≤ 0 then .error .domain else .ok (logNat n.toNat)
  | .float x =>
    if (Number.float x).isZero || (Number.float x).isNegative then .error .domain
    else .ok (.float x.log)

def exp (n : Number) : Except Fault Number := do
  let x ← n.toFloat
  let result := Number.float x.exp
  if result.isInfinite && !(Number.float x).isInfinite then .error .overflow else .ok result

def sqrt (n : Number) : Except Fault Number := do
  let x ← n.toFloat
  if (Number.float x).isNegative then .error .domain else .ok (.float x.sqrt)

def periodic (f : Float → Float) (n : Number) : Except Fault Number := do
  let x ← n.toFloat
  if (Number.float x).isInfinite then .error .domain else .ok (.float (f x))

def sin (n : Number) : Except Fault Number :=
  periodic Float.sin n

def cos (n : Number) : Except Fault Number :=
  periodic Float.cos n

end Number

end SymbolicSimplifier
