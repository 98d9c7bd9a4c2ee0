import Mathlib.Data.Set.Function
import SymbolicSimplifier.Proofs.Expr.Structure

set_option autoImplicit false

namespace SymbolicSimplifier

namespace Expr

def rename (f : String → String) : Expr → Expr :=
  bottomUp
    (fun
      | .var name => .var (f name)
      | e => e)
    .node

@[simp] theorem rename_literal (f : String → String) (n : Number) :
    (literal n).rename f = .literal n :=
  rfl

@[simp] theorem rename_named (f : String → String) (name : String) (n : Number) :
    (named name n).rename f = .named name n :=
  rfl

@[simp] theorem rename_var (f : String → String) (name : String) :
    (var name).rename f = .var (f name) :=
  rfl

@[simp] theorem rename_node (f : String → String) (head : Head) (args : List Expr) :
    (node head args).rename f = .node head (args.map (rename f)) :=
  bottomUp_node _ _ head args

@[simp] theorem rename_id (e : Expr) : e.rename id = e := by
  induction e using Expr.induction with
  | node head args ih =>
    rw [rename_node, List.map_congr_left ih, List.map_id']
  | _ => rfl

theorem substitute_eq_rename {bindings : Bindings} {f : String → String} {e : Expr}
    (renames : ∀ name ∈ e.varNames, bindings.lookup name = .var (f name)) :
    e.substitute bindings = e.rename f := by
  induction e using Expr.induction with
  | var name => exact renames name (by simp)
  | node head args ih =>
    rw [substitute_node, rename_node]
    refine congrArg (node head) (List.map_congr_left fun a member => ih a member ?_)
    intro name occurs
    exact renames name (by simpa using ⟨a, member, occurs⟩)
  | _ => rfl

def VarsIn (e : Expr) (names : Set String) : Prop :=
  ∀ name ∈ e.varNames, name ∈ names

@[simp] theorem varsIn_node (head : Head) (args : List Expr) (names : Set String) :
    (node head args).VarsIn names ↔ ∀ a ∈ args, a.VarsIn names := by
  simp only [VarsIn, varNames_node, List.mem_flatMap]
  grind

section Injective

variable {f : String → String} {names : Set String}

theorem sameAll_rename {as bs : List Expr}
    (ih : ∀ a ∈ as, ∀ b, b.VarsIn names → (a.rename f).same (b.rename f) = a.same b)
    (inside : ∀ b ∈ bs, b.VarsIn names) :
    sameAll (as.map (rename f)) (bs.map (rename f)) = sameAll as bs := by
  induction as generalizing bs with
  | nil => cases bs <;> rfl
  | cons a as all =>
    cases bs with
    | nil => rfl
    | cons b bs =>
      simp only [List.forall_mem_cons] at ih inside
      simp [sameAll, ih.1 b inside.1, all ih.2 inside.2]

theorem same_rename (injective : Set.InjOn f names) {a b : Expr} (left : a.VarsIn names)
    (right : b.VarsIn names) : (a.rename f).same (b.rename f) = a.same b := by
  induction a using Expr.induction generalizing b with
  | var name =>
    cases b with
    | var name' =>
      have apart : f name = f name' ↔ name = name' :=
        injective.eq_iff (left name (by simp)) (right name' (by simp))
      simp [same, apart]
    | _ => simp [same]
  | node head as ih =>
    cases b with
    | node head' bs =>
      rw [varsIn_node] at left right
      have args := sameAll_rename (fun a member _ inside => ih a member (left a member) inside)
        right
      simp [same, args]
    | _ => simp [same]
  | _ => cases b <;> simp [same]

end Injective

end Expr

end SymbolicSimplifier
