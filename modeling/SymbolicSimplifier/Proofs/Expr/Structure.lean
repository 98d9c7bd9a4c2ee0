import Mathlib.Algebra.Order.BigOperators.Group.List
import Mathlib.Algebra.Order.Ring.Nat
import SymbolicSimplifier.Expr.Arithmetic
import SymbolicSimplifier.Proofs.Expr.Equality
import SymbolicSimplifier.Substitution

set_option autoImplicit false

namespace SymbolicSimplifier

namespace Expr

-- Lemmas see literals and nodes, however an expression is written.
attribute [simp] ofInt nan unary binary apply plus power

def size : Expr → Nat :=
  bottomUp (fun _ => 1) (fun _ sizes => sizes.sum + 1)

def varNames : Expr → List String :=
  bottomUp
    (fun
      | .var name => [name]
      | _ => [])
    (fun _ parts => parts.flatten)

inductive Subterm : Expr → Expr → Prop where
  | refl (e : Expr) : Subterm e e
  | arg {s a : Expr} {head : Head} {args : List Expr} :
      a ∈ args → Subterm s a → Subterm s (.node head args)

@[simp] theorem size_literal (n : Number) : (literal n).size = 1 :=
  rfl

@[simp] theorem size_named (name : String) (n : Number) : (named name n).size = 1 :=
  rfl

@[simp] theorem size_var (name : String) : (var name).size = 1 :=
  rfl

@[simp] theorem size_node (head : Head) (args : List Expr) :
    (node head args).size = (args.map size).sum + 1 :=
  bottomUp_node _ _ head args

theorem size_unary (op : UnaryOp) (a : Expr) : (node (.unary op) [a]).size = a.size + 1 := by
  simp only [size_node, List.map_cons, List.map_nil, List.sum_cons, List.sum_nil]
  omega

theorem size_binary (op : BinaryOp) (a b : Expr) :
    (node (.binary op) [a, b]).size = a.size + b.size + 1 := by
  simp only [size_node, List.map_cons, List.map_nil, List.sum_cons, List.sum_nil]
  omega

theorem size_pos (e : Expr) : 0 < e.size := by
  cases e <;> simp

theorem size_lt_of_mem {a : Expr} (head : Head) {args : List Expr} (member : a ∈ args) :
    a.size < (node head args).size := by
  rw [size_node]
  exact Nat.lt_succ_of_le (List.single_le_sum (by simp) _ (List.mem_map_of_mem member))

@[simp] theorem varNames_literal (n : Number) : (literal n).varNames = [] :=
  rfl

@[simp] theorem varNames_named (name : String) (n : Number) : (named name n).varNames = [] :=
  rfl

@[simp] theorem varNames_var (name : String) : (var name).varNames = [name] :=
  rfl

@[simp] theorem varNames_node (head : Head) (args : List Expr) :
    (node head args).varNames = args.flatMap varNames :=
  (bottomUp_node _ _ head args).trans (List.flatMap_def ..).symm

theorem map_eq_of_same {α : Type} (f : Expr → α) {as bs : List Expr}
    (args : List.Forall₂ (fun a b => a.same b = true) as bs)
    (equal : ∀ a ∈ as, ∀ b ∈ bs, a.same b = true → f a = f b) : as.map f = bs.map f := by
  induction args with
  | nil => rfl
  | cons first _ rest =>
    simp only [List.map_cons, List.cons.injEq]
    constructor
    · exact equal _ (.head _) _ (.head _) first
    · exact rest fun a left b right => equal a (.tail _ left) b (.tail _ right)

theorem bottomUp_eq_of_same {α : Type} (leaf : Expr → α) (node : Head → List α → α)
    (leaves : ∀ a b : Expr, a.same b = true → leaf a = leaf b) {a b : Expr}
    (equal : a.same b = true) : a.bottomUp leaf node = b.bottomUp leaf node := by
  induction a using Expr.induction generalizing b with
  | literal n =>
    obtain ⟨m, rfl, _⟩ := (literal_same_iff ..).mp equal
    exact leaves _ _ equal
  | named name n =>
    obtain ⟨m, rfl, _⟩ := (named_same_iff ..).mp equal
    exact leaves _ _ equal
  | var name =>
    obtain rfl := (var_same_iff ..).mp equal
    rfl
  | node head as ih =>
    obtain ⟨bs, rfl, args⟩ := (node_same_iff ..).mp equal
    rw [bottomUp_node, bottomUp_node, map_eq_of_same _ args fun a member b _ => ih a member]

theorem size_eq_of_same {a b : Expr} (equal : a.same b = true) : a.size = b.size :=
  bottomUp_eq_of_same _ _ (fun _ _ _ => rfl) equal

namespace Subterm

@[simp] theorem literal_iff (s : Expr) (n : Number) : Subterm s (.literal n) ↔ s = .literal n := by
  constructor
  · intro inside
    cases inside with
    | refl => rfl
  · rintro rfl
    exact .refl _

@[simp] theorem node_iff (s : Expr) (head : Head) (args : List Expr) :
    Subterm s (.node head args) ↔ s = .node head args ∨ ∃ a ∈ args, Subterm s a := by
  constructor
  · intro inside
    cases inside with
    | refl => exact .inl rfl
    | arg member inside => exact .inr ⟨_, member, inside⟩
  · rintro (rfl | ⟨a, member, inside⟩)
    · exact .refl _
    · exact .arg member inside

end Subterm

attribute [simp] substitute_var substitute_node

@[simp] theorem substitute_literal (bindings : Bindings) (n : Number) :
    (literal n).substitute bindings = .literal n :=
  rfl

@[simp] theorem substitute_named (bindings : Bindings) (name : String) (n : Number) :
    (named name n).substitute bindings = .named name n :=
  rfl

end Expr

end SymbolicSimplifier
