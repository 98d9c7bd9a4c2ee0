import SymbolicSimplifier.Construction
import SymbolicSimplifier.Proofs.Expr.Correspondence

set_option autoImplicit false

namespace SymbolicSimplifier

theorem mapM_eq_ok {ε α β : Type} {f : α → Except ε β} {as : List α} {bs : List β}
    (each : List.Forall₂ (fun a b => f a = .ok b) as bs) : as.mapM f = .ok bs := by
  induction each with
  | nil => rfl
  | cons first _ ih =>
    rw [List.mapM_cons, ih, first]
    rfl

def Head.isNamed : Head → Bool
  | .function name => !name.isEmpty
  | _ => true

namespace Expr

def isWellFormed : Expr → Bool :=
  bottomUp
    (fun
      | .named name _ => !name.isEmpty
      | .var name => !name.isEmpty
      | _ => true)
    (fun head parts => head.isNamed && head.admits parts.length && parts.all id)

@[simp] theorem isWellFormed_literal (n : Number) : (literal n).isWellFormed = true :=
  rfl

@[simp] theorem isWellFormed_node (head : Head) (args : List Expr) :
    (node head args).isWellFormed = true ↔
      (head.isNamed = true ∧ head.admits args.length = true) ∧
        ∀ a ∈ args, a.isWellFormed = true := by
  rw [isWellFormed, bottomUp_node]
  simp

theorem induction_of_isWellFormed {P : (e : Expr) → e.isWellFormed = true → Prop}
    (literal : ∀ n formed, P (.literal n) formed)
    (named : ∀ name n formed, P (.named name n) formed)
    (var : ∀ name formed, P (.var name) formed)
    (unary : ∀ op a inner formed, P a inner → P (.node (.unary op) [a]) formed)
    (binary : ∀ op a b inner inner' formed, P a inner → P b inner' →
      P (.node (.binary op) [a, b]) formed)
    (function : ∀ name args (inner : ∀ a ∈ args, a.isWellFormed = true) formed,
      (∀ a member, P a (inner a member)) → P (.node (.function name) args) formed)
    (e : Expr) (formed : e.isWellFormed = true) : P e formed := by
  induction e using Expr.induction with
  | literal n => exact literal n formed
  | named name n => exact named name n formed
  | var name => exact var name formed
  | node head args ih =>
    obtain ⟨⟨_, admitted⟩, inner⟩ := (isWellFormed_node ..).mp formed
    cases head with
    | unary op =>
      obtain ⟨a, rfl⟩ := List.length_eq_one_iff.mp (by simpa [Head.admits] using admitted)
      exact unary op a (inner a (by simp)) formed (ih a (by simp) _)
    | binary op =>
      obtain ⟨a, b, rfl⟩ := List.length_eq_two.mp (by simpa [Head.admits] using admitted)
      exact binary op a b (inner a (by simp)) (inner b (by simp)) formed (ih a (by simp) _)
        (ih b (by simp) _)
    | function name => exact function name args inner formed fun a member => ih a member _

theorem isWellFormed_of_subterm {s e : Expr} (inside : Subterm s e)
    (formed : e.isWellFormed = true) : s.isWellFormed = true := by
  induction inside with
  | refl => exact formed
  | arg member _ ih => exact ih (((isWellFormed_node ..).mp formed).2 _ member)

theorem ofSymbol?_unary (op : UnaryOp) : UnaryOp.ofSymbol? op.symbol = some op := by
  cases op <;> decide

theorem ofSymbol?_binary (op : BinaryOp) : BinaryOp.ofSymbol? op.symbol = some op := by
  cases op <;> decide

theorem mapM_asArgument (args : List Expr) :
    (args.map Value.expr).mapM Value.asArgument = .ok args := by
  apply mapM_eq_ok
  rw [List.forall₂_map_left_iff, List.forall₂_same]
  exact fun a _ => rfl

theorem ofUnary_symbol (op : UnaryOp) (operand : Expr) :
    ofUnary op.symbol (.expr operand) = .ok (.node (.unary op) [operand]) := by
  rw [ofUnary, ofSymbol?_unary]
  rfl

theorem ofBinary_symbol (op : BinaryOp) (left right : Expr) :
    ofBinary op.symbol (.expr left) (.expr right) = .ok (.node (.binary op) [left, right]) := by
  rw [ofBinary, ofSymbol?_binary]
  rfl

theorem ofFunction_text {name : String} {args : List Expr} (named : name.isEmpty = false)
    (some : args ≠ []) :
    ofFunction (.text name) (args.map .expr) = .ok (.node (.function name) args) := by
  simp only [ofFunction, Value.asName, named, Bool.false_eq_true, if_false, List.isEmpty_map,
    List.isEmpty_iff, some]
  change (do
    let args ← (args.map Value.expr).mapM Value.asArgument
    return Expr.apply name args) = _
  rw [mapM_asArgument]
  rfl

theorem withChildren_eq_ok {head : Head} {args : List Expr}
    (formed : (node head args).isWellFormed = true) (others : List Expr) :
    (node head others).withChildren (args.map .expr) = .ok (.node head args) := by
  obtain ⟨⟨named, admitted⟩, _⟩ := (isWellFormed_node ..).mp formed
  cases head with
  | unary op =>
    obtain ⟨operand, rfl⟩ := List.length_eq_one_iff.mp (by simpa [Head.admits] using admitted)
    exact ofUnary_symbol op operand
  | binary op =>
    obtain ⟨left, right, rfl⟩ := List.length_eq_two.mp (by simpa [Head.admits] using admitted)
    exact ofBinary_symbol op left right
  | function name =>
    apply ofFunction_text
    · simpa [Head.isNamed] using named
    · simpa [Head.admits, List.length_pos_iff] using admitted

end Expr

end SymbolicSimplifier
