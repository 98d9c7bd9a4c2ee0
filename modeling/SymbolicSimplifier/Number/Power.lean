import SymbolicSimplifier.Number.Complex

set_option autoImplicit false

namespace SymbolicSimplifier

inductive Outcome where
  | number (value : Number)
  | truth (value : Bool)
  | complex (value : ComplexNumber)

namespace Number

-- Integer powers. Bases of size at most one need no multiplication, however large the exponent.
def intPower (base : Int) (exponent : Nat) : Int :=
  if exponent = 0 then 1
  else if base.natAbs ≤ 1 then
    if base = -1 ∧ exponent % 2 = 0 then 1 else base
  else Int.pow base exponent

def floatPower (x y : Float) : Except Fault Outcome :=
  match (Number.float x).exact, (Number.float y).exact with
  | .finite base, .finite exponent =>
    if base = 0 ∧ exponent < 0 then .error .zeroDivision
    else if base < 0 ∧ exponent.den ≠ 1 then
      .complex <$> ComplexNumber.power ⟨x, 0.0⟩ y
    else
      let result := Number.float (Float.pow x y)
      if result.isInfinite then .error .overflow else .ok (.number result)
  | _, _ => .ok (.number (.float (Float.pow x y)))

def pow : Number → Number → Except Fault Outcome
  | .int a, .int b =>
    if 0 ≤ b then .ok (.number (.int (intPower a b.toNat)))
    else do
      let x ← (Number.int a).toFloat
      let y ← (Number.int b).toFloat
      floatPower x y
  | a, b => do
    let x ← a.toFloat
    let y ← b.toFloat
    floatPower x y

end Number

namespace Outcome

def pow : Outcome → Number → Except Fault Outcome
  | .number a, b => a.pow b
  | .truth a, b => (Number.int (if a then 1 else 0)).pow b
  | .complex z, b => do
    let y ← b.toFloat
    .complex <$> z.power y

end Outcome

end SymbolicSimplifier
