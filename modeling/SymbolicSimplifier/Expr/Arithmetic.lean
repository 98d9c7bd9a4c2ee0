import SymbolicSimplifier.Expr.Basic

set_option autoImplicit false

namespace SymbolicSimplifier

namespace Expr

instance (n : Nat) : OfNat Expr n :=
  ⟨.ofInt n⟩

instance : Add Expr :=
  ⟨.binary .add⟩

instance : Sub Expr :=
  ⟨.binary .sub⟩

instance : Mul Expr :=
  ⟨.binary .mul⟩

instance : Div Expr :=
  ⟨.binary .div⟩

instance : Neg Expr :=
  ⟨.unary .minus⟩

def plus : Expr → Expr :=
  .unary .plus

def power : Expr → Expr → Expr :=
  .binary .pow

def nan : Expr :=
  .literal .nan

@[simp] theorem ofNat_eq (n : Nat) : (OfNat.ofNat n : Expr) = .literal (.int n) :=
  rfl

@[simp] theorem add_eq (a b : Expr) : a + b = .node (.binary .add) [a, b] :=
  rfl

@[simp] theorem sub_eq (a b : Expr) : a - b = .node (.binary .sub) [a, b] :=
  rfl

@[simp] theorem mul_eq (a b : Expr) : a * b = .node (.binary .mul) [a, b] :=
  rfl

@[simp] theorem div_eq (a b : Expr) : a / b = .node (.binary .div) [a, b] :=
  rfl

@[simp] theorem neg_eq (a : Expr) : -a = .node (.unary .minus) [a] :=
  rfl

end Expr

end SymbolicSimplifier
