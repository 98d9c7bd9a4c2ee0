import SymbolicSimplifier.Number.Arithmetic

set_option autoImplicit false

namespace SymbolicSimplifier

structure ComplexNumber where
  re : Float
  im : Float

namespace ComplexNumber

def one : ComplexNumber :=
  ⟨1.0, 0.0⟩

def isInfinite (z : ComplexNumber) : Bool :=
  z.re.isInf || z.im.isInf

def mul (a b : ComplexNumber) : ComplexNumber :=
  ⟨a.re * b.re - a.im * b.im, a.re * b.im + a.im * b.re⟩

def div (a b : ComplexNumber) : Except Fault ComplexNumber :=
  if b.im.abs ≤ b.re.abs then
    if b.re == 0.0 then .error .zeroDivision
    else
      let ratio := b.im / b.re
      let size := b.re + b.im * ratio
      .ok ⟨(a.re + a.im * ratio) / size, (a.im - a.re * ratio) / size⟩
  else if b.re.abs ≤ b.im.abs then
    let ratio := b.re / b.im
    let size := b.re * ratio + b.im
    .ok ⟨(a.re * ratio + a.im) / size, (a.im * ratio - a.re) / size⟩
  else .ok ⟨b.re + b.im, b.re + b.im⟩

def size (z : ComplexNumber) : Float :=
  let larger := if z.re.abs < z.im.abs then z.im.abs else z.re.abs
  if larger == 0.0 || larger.isInf then larger
  else
    let x := z.re / larger
    let y := z.im / larger
    larger * Float.sqrt (x * x + y * y)

-- Powers by repeated squaring; `bits` bounds the number of binary digits of the exponent.
def powNat (bits : Nat) (z result : ComplexNumber) (exponent : Nat) : ComplexNumber :=
  match bits with
  | 0 => result
  | bits + 1 =>
    if exponent = 0 then result
    else
      let result := if exponent % 2 = 1 then mul result z else result
      powNat bits (mul z z) result (exponent / 2)

def powInt (z : ComplexNumber) (exponent : Int) : Except Fault ComplexNumber :=
  if 0 < exponent then .ok (powNat 7 z one exponent.toNat)
  else div one (powNat 7 z one (-exponent).toNat)

def polarPower (z : ComplexNumber) (exponent : Float) : Except Fault ComplexNumber :=
  if z.re == 0.0 && z.im == 0.0 then
    if exponent < 0.0 then .error .zeroDivision else .ok ⟨0.0, 0.0⟩
  else
    let length := Float.pow z.size exponent
    let angle := Float.atan2 z.im z.re * exponent
    if angle.isInf then .error .zeroDivision
    else .ok ⟨length * angle.cos, length * angle.sin⟩

def smallInteger? (exponent : Float) : Option Int :=
  match (Binary64.ofFloat exponent).exact with
  | .finite value =>
    if value.den = 1 ∧ value.num.natAbs ≤ 100 then some value.num else none
  | _ => none

def power (z : ComplexNumber) (exponent : Float) : Except Fault ComplexNumber := do
  let result ←
    match smallInteger? exponent with
    | some n => powInt z n
    | none => polarPower z exponent
  if result.isInfinite then .error .overflow else .ok result

end ComplexNumber

end SymbolicSimplifier
