import Mathlib.Data.List.Forall2
import SymbolicSimplifier.Expr.Basic

set_option autoImplicit false

namespace SymbolicSimplifier

theorem forall₂_imp_of_mem {α β : Type} {R S : α → β → Prop} {as : List α} {bs : List β}
    (each : ∀ a ∈ as, ∀ b, R a b → S a b) (pairs : List.Forall₂ R as bs) : List.Forall₂ S as bs :=
  ((List.forall₂_and_left ..).mpr ⟨each, pairs⟩).imp fun _ b ⟨each, here⟩ => each b here

@[simp] theorem Number.same_iff (a b : Number) : a.same b = true ↔ a.exact = b.exact := by
  simp [same]

namespace Expr

@[simp] theorem beq_eq_same (a b : Expr) : (a == b) = a.same b :=
  rfl

@[simp] theorem literal_same_iff (n : Number) (e : Expr) :
    (literal n).same e = true ↔ ∃ m, e = .literal m ∧ n.exact = m.exact := by
  cases e <;> simp [same]

@[simp] theorem named_same_iff (name : String) (n : Number) (e : Expr) :
    (named name n).same e = true ↔ ∃ m, e = .named name m ∧ n.exact = m.exact := by
  cases e <;> simp [same, eq_comm (a := name)]

@[simp] theorem var_same_iff (name : String) (e : Expr) :
    (var name).same e = true ↔ e = .var name := by
  cases e <;> simp [same, eq_comm (a := name)]

theorem sameAll_iff (as bs : List Expr) :
    sameAll as bs = true ↔ List.Forall₂ (fun a b => a.same b = true) as bs := by
  induction as generalizing bs with
  | nil => cases bs <;> simp [sameAll]
  | cons a as ih => cases bs <;> simp [sameAll, ih]

@[simp] theorem node_same_iff (head : Head) (as : List Expr) (e : Expr) :
    (node head as).same e = true ↔
      ∃ bs, e = .node head bs ∧ List.Forall₂ (fun a b => a.same b = true) as bs := by
  cases e with
  | node head' bs =>
    simp only [same, Bool.and_eq_true, beq_iff_eq, sameAll_iff, node.injEq]
    constructor
    · rintro ⟨rfl, args⟩
      exact ⟨bs, ⟨rfl, rfl⟩, args⟩
    · rintro ⟨_, ⟨rfl, rfl⟩, args⟩
      exact ⟨rfl, args⟩
  | _ => simp [same]

@[simp] theorem same_refl (e : Expr) : e.same e = true := by
  induction e using Expr.induction with
  | node head args ih => simpa [List.forall₂_same] using ih
  | _ => simp

theorem same_symm {a b : Expr} (equal : a.same b = true) : b.same a = true := by
  induction a using Expr.induction generalizing b with
  | node head as ih =>
    obtain ⟨bs, rfl, args⟩ := (node_same_iff ..).mp equal
    have flipped : List.Forall₂ (flip fun a b => a.same b = true) as bs :=
      forall₂_imp_of_mem (fun a member _ here => ih a member here) args
    exact (node_same_iff ..).mpr ⟨as, rfl, flipped.flip⟩
  | _ => aesop

theorem same_trans {a b c : Expr} (first : a.same b = true) (second : b.same c = true) :
    a.same c = true := by
  induction a using Expr.induction generalizing b c with
  | node head as ih =>
    obtain ⟨bs, rfl, left⟩ := (node_same_iff ..).mp first
    obtain ⟨cs, rfl, right⟩ := (node_same_iff ..).mp second
    refine (node_same_iff ..).mpr ⟨cs, rfl, ?_⟩
    clear first second
    induction left generalizing cs with
    | nil => exact right
    | cons ab _ rest =>
      obtain _ | ⟨bc, right⟩ := right
      simp only [List.forall_mem_cons] at ih
      exact .cons (ih.1 ab bc) (rest ih.2 _ right)
  | _ => aesop

end Expr

end SymbolicSimplifier
