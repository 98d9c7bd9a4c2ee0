import SymbolicSimplifier.Proofs.Integer.Evaluation

set_option autoImplicit false

namespace SymbolicSimplifier

namespace Expr

section Meaning

variable (values : String → Int)

-- Of no use where the expression is not `Defined`.
def meaning : Expr → Int :=
  bottomUp
    (fun
      | .literal (.int n) => n
      | .var name => values name
      | _ => 0)
    (fun
      | .unary op, [a] => op.onInteger a
      | .binary op, [a, b] => op.onIntegers a b
      | _, _ => 0)

inductive Defined : Expr → Prop
  | literal (n : Int) : Defined (.literal (.int n))
  | var (name : String) : Defined (.var name)
  | unary (op : UnaryOp) {a : Expr} : Defined a → Defined (.node (.unary op) [a])
  | binary (op : BinaryOp) {a b : Expr} : Defined a → Defined b →
      op.DefinedOn (a.meaning values) (b.meaning values) → Defined (.node (.binary op) [a, b])

@[simp] theorem meaning_int (n : Int) : (literal (.int n)).meaning values = n :=
  rfl

@[simp] theorem meaning_var (name : String) : (var name).meaning values = values name :=
  rfl

@[simp] theorem meaning_unary (op : UnaryOp) (a : Expr) :
    (node (.unary op) [a]).meaning values = op.onInteger (a.meaning values) :=
  rfl

@[simp] theorem meaning_binary (op : BinaryOp) (a b : Expr) :
    (node (.binary op) [a, b]).meaning values =
      op.onIntegers (a.meaning values) (b.meaning values) :=
  rfl

end Meaning

variable {values : String → Int}

theorem Defined.eq_of_literal? {e : Expr} (defined : Defined values e) {n : Number}
    (literal : e.literal? = some n) : n = .int (e.meaning values) := by
  cases defined with
  | literal =>
    cases literal
    rfl
  | _ => cases literal

theorem Defined.eq_of_nodeValue? {e : Expr} (defined : Defined values e) {n : Number}
    (folded : Prelude.operators.nodeValue? e = some n) : n = .int (e.meaning values) := by
  cases defined with
  | literal => cases folded
  | var => cases folded
  | unary op operand =>
    obtain ⟨k, literal, result⟩ := (Prelude.literalValue?_unary_iff ..).mp folded
    rw [operand.eq_of_literal? literal, Prelude.operators_unary] at result
    exact (Option.some.inj result).symm
  | binary op left right defined =>
    obtain ⟨j, k, first, second, result⟩ := (Prelude.literalValue?_binary_iff ..).mp folded
    rw [left.eq_of_literal? first, right.eq_of_literal? second,
      Prelude.operators_binary op _ _ defined] at result
    exact (Option.some.inj result).symm

theorem Defined.computes_substitute {e : Expr} (defined : Defined values e) {bindings : Bindings}
    (bound : ∀ name ∈ e.varNames, bindings.find? name = some (.literal (.int (values name)))) :
    Computes (e.substitute bindings) (e.meaning values) := by
  induction defined with
  | literal n => exact .literal n
  | var name =>
    rw [substitute_var, Bindings.lookup, bound name (by simp)]
    exact .literal (values name)
  | unary op _ ih =>
    simp only [varNames_node, List.flatMap_cons, List.flatMap_nil, List.append_nil] at bound
    exact .unary op (ih bound)
  | binary op _ _ defined left right =>
    simp only [varNames_node, List.flatMap_cons, List.flatMap_nil, List.append_nil,
      List.mem_append] at bound
    have first := left fun name here => bound name (.inl here)
    have second := right fun name there => bound name (.inr there)
    exact .binary op first second defined

end Expr

end SymbolicSimplifier
