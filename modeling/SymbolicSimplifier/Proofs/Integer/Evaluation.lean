import SymbolicSimplifier.Expr.Arithmetic
import SymbolicSimplifier.Proofs.Folding.Basic
import SymbolicSimplifier.Proofs.Integer.Operators

set_option autoImplicit false

namespace SymbolicSimplifier

namespace Expr

/-- The integer that an expression of integers and operators stands for, if every operator in it is
defined on its operands. -/
inductive Computes : Expr → Int → Prop
  | literal (n : Int) : Computes (.literal (.int n)) n
  | unary (op : UnaryOp) {a : Expr} {m : Int} : Computes a m →
      Computes (.node (.unary op) [a]) (op.onInteger m)
  | binary (op : BinaryOp) {a b : Expr} {m n : Int} : Computes a m → Computes b n →
      op.DefinedOn m n → Computes (.node (.binary op) [a, b]) (op.onIntegers m n)

theorem Computes.evaluates {e : Expr} {n : Int} (computes : Computes e n) :
    e.evaluate? .operators = some (.int n) := by
  induction computes with
  | literal n => rfl
  | unary op _ operand => simp [evaluate?_node, operand, Prelude.operators_unary]
  | binary op _ _ defined left right =>
    simp [evaluate?_node, left, right, Prelude.operators_binary op _ _ defined]

/-- An expression stands for at most one integer, and this is what it is evaluated to: never a
rounded number, and never one that is undefined. -/
theorem integer_evaluation_exact {e : Expr} {n : Int} (computes : Computes e n) :
    e.evaluate? .operators = some (.int n) ∧ ∀ m, Computes e m → m = n := by
  have evaluated := computes.evaluates
  refine ⟨evaluated, fun m other => ?_⟩
  rw [other.evaluates] at evaluated
  exact Number.int.inj (Option.some.inj evaluated)

def mixedOperators : Expr :=
  .binary .or (.binary .and (.power 2 70 / -.power 2 3) (.unary .complement 5))
    (.binary .eq (.power 0 0) 1 - .binary .ge 2 3)

theorem mixedOperators_evaluation_exact :
    Computes mixedOperators (-147573952589676412927) ∧
      mixedOperators.evaluate? .operators = some (.int (-147573952589676412927)) := by
  have natural (base : Int) (exponent : Nat) : BinaryOp.pow.DefinedOn base exponent :=
    Int.natCast_nonneg exponent
  have dividend : Computes (.power 2 70) 1180591620717411303424 :=
    .binary .pow (.literal 2) (.literal 70) (natural 2 70)
  have divisor : Computes (-.power 2 3) (-8) :=
    .unary .minus (.binary .pow (.literal 2) (.literal 3) (natural 2 3))
  have quotient : Computes (.power 2 70 / -.power 2 3) (-147573952589676412928) :=
    .binary .div dividend divisor ⟨by decide, by decide⟩
  have word : Computes (.binary .and (.power 2 70 / -.power 2 3) (.unary .complement 5))
      (-147573952589676412928) :=
    .binary .and quotient (.unary .complement (.literal 5)) trivial
  have one : Computes (.binary .eq (.power 0 0) 1) 1 :=
    .binary .eq (.binary .pow (.literal 0) (.literal 0) (natural 0 0)) (.literal 1) trivial
  have zero : Computes (.binary .ge 2 3) 0 := .binary .ge (.literal 2) (.literal 3) trivial
  have difference : Computes (.binary .eq (.power 0 0) 1 - .binary .ge 2 3) 1 :=
    .binary .sub one zero trivial
  have joined : BinaryOp.or.onIntegers (-147573952589676412928) 1 = -147573952589676412927 := by
    rw [BinaryOp.onIntegers, ← Bits.or_eq_lor]
    rfl
  have computes : Computes mixedOperators (-147573952589676412927) :=
    joined ▸ .binary .or word difference trivial
  exact ⟨computes, (integer_evaluation_exact computes).1⟩

end Expr

end SymbolicSimplifier
