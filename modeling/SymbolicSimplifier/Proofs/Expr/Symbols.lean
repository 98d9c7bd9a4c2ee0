import SymbolicSimplifier.Proofs.Expr.Structure

set_option autoImplicit false

namespace SymbolicSimplifier

inductive Symbol where
  | var (name : String)
  | constant (name : String)
  | function (name : String)
deriving DecidableEq

def Symbol.name : Symbol → String
  | .var name => name
  | .constant name => name
  | .function name => name

def Head.symbols : Head → List Symbol
  | .function name => [.function name]
  | _ => []

namespace Expr

def symbols : Expr → List Symbol :=
  bottomUp
    (fun
      | .var name => [.var name]
      | .named name _ => [.constant name]
      | _ => [])
    (fun head parts => head.symbols ++ parts.flatten)

@[simp] theorem symbols_literal (n : Number) : (literal n).symbols = [] :=
  rfl

@[simp] theorem symbols_named (name : String) (n : Number) :
    (named name n).symbols = [.constant name] :=
  rfl

@[simp] theorem symbols_var (name : String) : (var name).symbols = [.var name] :=
  rfl

@[simp] theorem symbols_node (head : Head) (args : List Expr) :
    (node head args).symbols = head.symbols ++ args.flatMap symbols :=
  (bottomUp_node _ _ head args).trans (congrArg _ (List.flatMap_def ..).symm)

theorem symbols_eq_of_same {a b : Expr} (equal : a.same b = true) : a.symbols = b.symbols := by
  refine bottomUp_eq_of_same _ _ ?_ equal
  intro a b equal
  cases a <;> cases b <;> simp_all

@[simp] theorem isConstant_node (head : Head) (args : List Expr) :
    (node head args).isConstant = args.all isConstant := by
  rw [isConstant, bottomUp_node, List.all_map]
  rfl

theorem isConstant_iff (e : Expr) : e.isConstant = true ↔ ∀ name, .var name ∉ e.symbols := by
  induction e using Expr.induction with
  | node head args ih =>
    have operator (name : String) : .var name ∉ head.symbols := by
      cases head <;> simp [Head.symbols]
    simp only [isConstant_node, List.all_eq_true, symbols_node, List.mem_append, operator,
      List.mem_flatMap, false_or]
    grind
  | _ => simp [isConstant, bottomUp]

def SymbolsWithin (after before : Expr) : Prop :=
  ∀ symbol, after.symbols.count symbol ≤ before.symbols.count symbol

namespace SymbolsWithin

theorem refl (e : Expr) : SymbolsWithin e e :=
  fun _ => Nat.le_refl _

theorem trans {a b c : Expr} (first : SymbolsWithin a b) (second : SymbolsWithin b c) :
    SymbolsWithin a c :=
  fun symbol => (first symbol).trans (second symbol)

theorem literal (n : Number) (e : Expr) : SymbolsWithin (.literal n) e :=
  fun _ => by simp

theorem node_map (head : Head) (args : List Expr) (f : Expr → Expr)
    (within : ∀ a ∈ args, SymbolsWithin (f a) a) :
    SymbolsWithin (.node head (args.map f)) (.node head args) := by
  intro symbol
  simp only [symbols_node, List.count_append, List.count_flatMap, List.map_map]
  apply Nat.add_le_add_left
  exact List.sum_le_sum fun a member => within a member symbol

theorem of_same {after before other : Expr} (within : SymbolsWithin after before)
    (equal : before.same other = true) : SymbolsWithin after other :=
  fun symbol => symbols_eq_of_same equal ▸ within symbol

theorem isConstant {after before : Expr} (within : SymbolsWithin after before)
    (constant : before.isConstant = true) : after.isConstant = true := by
  rw [isConstant_iff] at constant ⊢
  intro name occurs
  have counted := within (.var name)
  rw [List.count_eq_zero_of_not_mem (constant name)] at counted
  exact (List.count_pos_iff.mpr occurs).not_ge counted

end SymbolsWithin

end Expr

end SymbolicSimplifier
