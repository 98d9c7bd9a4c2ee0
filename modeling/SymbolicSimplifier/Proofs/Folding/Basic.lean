import SymbolicSimplifier.Folding
import SymbolicSimplifier.Proofs.Expr.Structure

set_option autoImplicit false

namespace SymbolicSimplifier

theorem mapM_eq_some_iff {α β : Type} (f : α → Option β) (as : List α) (bs : List β) :
    as.mapM f = some bs ↔ List.Forall₂ (fun a b => f a = some b) as bs := by
  induction as generalizing bs with
  | nil => cases bs <;> simp
  | cons a as ih => cases bs <;> simp [List.mapM_cons, Option.bind_eq_some_iff, ih]

theorem mapM_isSome_iff {α β : Type} (f : α → Option β) (as : List α) :
    (as.mapM f).isSome = true ↔ ∀ a ∈ as, (f a).isSome = true := by
  induction as with
  | nil => simp
  | cons a as ih =>
    rw [List.forall_mem_cons, ← ih, List.mapM_cons]
    cases f a <;> cases as.mapM f <;> simp

namespace Expr

@[simp] theorem literal?_eq_some_iff (e : Expr) (n : Number) :
    e.literal? = some n ↔ e = .literal n := by
  cases e <;> simp [literal?]

theorem mapM_literal?_eq_some_iff (args : List Expr) (numbers : List Number) :
    args.mapM literal? = some numbers ↔ args = numbers.map literal := by
  simp [mapM_eq_some_iff, ← List.forall₂_eq_eq_eq, List.forall₂_map_right_iff]

end Expr

namespace Prelude

variable {handlers : Prelude}

theorem literalValue?_eq_some_iff (head : Head) (args : List Expr) (n : Number) :
    handlers.literalValue? head args = some n ↔
      ∃ numbers, args = numbers.map .literal ∧ handlers.result? head numbers = some n := by
  simp [literalValue?, Option.bind_eq_some_iff, Expr.mapM_literal?_eq_some_iff]

theorem settle_of_result? {head : Head} {numbers : List Number} {n : Number}
    (result : handlers.result? head numbers = some n) :
    handlers.settle head (numbers.map .literal) = .literal n := by
  have value : handlers.literalValue? head (numbers.map .literal) = some n :=
    (literalValue?_eq_some_iff ..).mpr ⟨numbers, rfl, result⟩
  rw [settle, value]

end Prelude

namespace Expr

variable {handlers : Prelude}

theorem bottomUp_fold {α : Type} {leaf : Expr → α} {node : Head → List α → α}
    (unnoticed : ∀ head numbers n, handlers.result? head numbers = some n →
      node head (numbers.map fun k => leaf (.literal k)) = leaf (.literal n))
    (e : Expr) : (e.fold handlers).bottomUp leaf node = e.bottomUp leaf node := by
  induction e using Expr.induction with
  | node head args ih =>
    have parts : (args.map (fold handlers)).map (bottomUp leaf node) =
        args.map (bottomUp leaf node) := by
      rw [List.map_map]
      exact List.map_congr_left ih
    rw [fold_node, Prelude.settle, bottomUp_node, ← parts]
    split
    case h_1 n value =>
      -- The node is gone, but it was over numbers and they are what is computed with.
      obtain ⟨numbers, literals, result⟩ := (Prelude.literalValue?_eq_some_iff ..).mp value
      rw [literals, List.map_map]
      exact (unnoticed head numbers n result).symm
    case h_2 => rw [bottomUp_node]
  | _ => rfl

theorem bottomUp_substitute {α : Type} (leaf : Expr → α) (node : Head → List α → α)
    (bindings : Bindings) (e : Expr) :
    (e.substitute bindings).bottomUp leaf node =
      e.bottomUp (fun a => (a.substitute bindings).bottomUp leaf node) node := by
  induction e using Expr.induction with
  | node head args ih =>
    rw [substitute_node, bottomUp_node, bottomUp_node, List.map_map]
    exact congrArg (node head) (List.map_congr_left ih)
  | _ => rfl

theorem evaluate?_eq_some_iff (e : Expr) (n : Number) :
    e.evaluate? handlers = some n ↔ e.fold handlers = .literal n :=
  literal?_eq_some_iff ..

theorem evaluate?_node (head : Head) (args : List Expr) :
    (node head args).evaluate? handlers =
      (args.mapM (evaluate? handlers)).bind (handlers.result? head) := by
  have values : handlers.literalValue? head (args.map (fold handlers)) =
      (args.mapM (evaluate? handlers)).bind (handlers.result? head) := by
    rw [Prelude.literalValue?, List.mapM_map]
    rfl
  rw [evaluate?, fold_node, Prelude.settle, values]
  cases (args.mapM (evaluate? handlers)).bind (handlers.result? head) <;> rfl

end Expr

end SymbolicSimplifier
