import Mathlib.Data.List.Forall2
import Mathlib.Logic.Relation
import SymbolicSimplifier.Expr.Display

set_option autoImplicit false

namespace SymbolicSimplifier

namespace Expr

/-- One operator that binds like the operator above it moves from the left argument to the right
one, somewhere in the expression. -/
inductive Regroup : Expr → Expr → Prop where
  | here {op op' : BinaryOp} (left middle right : Expr) : op.strength = op'.strength →
      Regroup (.node (.binary op') [.node (.binary op) [left, middle], right])
        (.node (.binary op) [left, .node (.binary op') [middle, right]])
  | inside {a b : Expr} (head : Head) (before after : List Expr) : Regroup a b →
      Regroup (.node head (before ++ a :: after)) (.node head (before ++ b :: after))

def Regrouped : Expr → Expr → Prop :=
  Relation.EqvGen Regroup

namespace Regrouped

theorem refl (e : Expr) : Regrouped e e :=
  Relation.EqvGen.refl e

theorem symm {a b : Expr} (regrouped : Regrouped a b) : Regrouped b a :=
  Relation.EqvGen.symm _ _ regrouped

theorem trans {a b c : Expr} (first : Regrouped a b) (second : Regrouped b c) : Regrouped a c :=
  Relation.EqvGen.trans _ _ _ first second

theorem here {op op' : BinaryOp} (left middle right : Expr) (equal : op.strength = op'.strength) :
    Regrouped (.node (.binary op') [.node (.binary op) [left, middle], right])
      (.node (.binary op) [left, .node (.binary op') [middle, right]]) :=
  .rel _ _ (.here left middle right equal)

theorem inside {a b : Expr} (head : Head) (before after : List Expr) (regrouped : Regrouped a b) :
    Regrouped (.node head (before ++ a :: after)) (.node head (before ++ b :: after)) := by
  induction regrouped with
  | rel _ _ step => exact .rel _ _ (.inside head before after step)
  | refl => exact refl _
  | symm _ _ _ ih => exact ih.symm
  | trans _ _ _ _ _ first second => exact first.trans second

-- Argument after argument: those before are regrouped already.
theorem node (head : Head) (before : List Expr) {args args' : List Expr}
    (each : List.Forall₂ Regrouped args args') :
    Regrouped (.node head (before ++ args)) (.node head (before ++ args')) := by
  induction each generalizing before with
  | nil => exact refl _
  | @cons a b args args' first _ ih =>
    have others := ih (before ++ [b])
    rw [List.append_assoc, List.append_assoc] at others
    exact (inside head before args first).trans others

end Regrouped

@[simp] theorem rendering_strength (e : Expr) : e.rendering.strength = e.strength := by
  cases e with
  | node head args => rw [rendering, bottomUp_node]; rfl
  | _ => rfl

theorem rendering_node (head : Head) (args : List Expr) :
    (node head args).rendering = ⟨head.displayText (args.map rendering), head.strength⟩ :=
  bottomUp_node _ _ head args

theorem rendering_binary (op : BinaryOp) (a b : Expr) :
    (node (.binary op) [a, b]).rendering =
      ⟨a.rendering.within op.strength ++ op.separator ++ b.rendering.within op.strength,
        op.strength⟩ := by
  simp [rendering_node, Head.displayText, Head.strength]

theorem Regroup.rendering_eq {a b : Expr} (step : Regroup a b) : a.rendering = b.rendering := by
  induction step with
  | here left middle right equal =>
    simp [rendering_binary, Rendering.within, equal, String.append_assoc]
  | inside head before after _ ih =>
    rw [rendering_node, rendering_node, List.map_append, List.map_append, List.map_cons,
      List.map_cons, ih]

theorem Regrouped.rendering_eq {a b : Expr} (regrouped : Regrouped a b) :
    a.rendering = b.rendering := by
  induction regrouped with
  | rel _ _ step => exact step.rendering_eq
  | refl => rfl
  | symm _ _ _ ih => exact ih.symm
  | trans _ _ _ _ _ first second => exact first.trans second

theorem Regrouped.display_eq {a b : Expr} (regrouped : Regrouped a b) : a.display = b.display :=
  congrArg Rendering.text regrouped.rendering_eq

def joinRight (op : BinaryOp) (right : Expr) : Expr → Expr
  | .node (.binary op') [a, b] =>
    if op'.strength = op.strength then .node (.binary op') [a, joinRight op right b]
    else .node (.binary op) [.node (.binary op') [a, b], right]
  | left => .node (.binary op) [left, right]

def nodeToRight : Head → List Expr → Expr
  | .binary op, [left, right] => joinRight op right left
  | head, args => .node head args

def toRight : Expr → Expr :=
  bottomUp id nodeToRight

theorem toRight_node (head : Head) (args : List Expr) :
    (node head args).toRight = nodeToRight head (args.map toRight) :=
  bottomUp_node _ _ head args

theorem joinRight_regrouped (op : BinaryOp) (left right : Expr) :
    Regrouped (.node (.binary op) [left, right]) (joinRight op right left) := by
  fun_induction joinRight op right left with
  | case1 op' a b equal ih =>
    exact (Regrouped.here a b right equal).trans (.inside (.binary op') [a] [] ih)
  | case2 => exact .refl _
  | case3 => exact .refl _

theorem nodeToRight_regrouped (head : Head) (args : List Expr) :
    Regrouped (.node head args) (nodeToRight head args) := by
  unfold nodeToRight
  split
  · exact joinRight_regrouped _ _ _
  · exact .refl _

theorem toRight_regrouped (e : Expr) : Regrouped e e.toRight := by
  induction e using Expr.induction with
  | literal | named | var => exact .refl _
  | node head args ih =>
    have each : List.Forall₂ Regrouped args (args.map toRight) := by
      rw [List.forall₂_map_right_iff, List.forall₂_same]
      exact ih
    rw [toRight_node]
    exact (Regrouped.node head [] each).trans (nodeToRight_regrouped _ _)

theorem regrouped_of_toRight_eq {a b : Expr} (equal : a.toRight = b.toRight) : Regrouped a b :=
  (toRight_regrouped a).trans (equal ▸ (toRight_regrouped b).symm)

end Expr

end SymbolicSimplifier
