import Mathlib.Algebra.BigOperators.Ring.List
import Mathlib.Algebra.Order.Ring.Nat
import Mathlib.Tactic.Linarith
import SymbolicSimplifier.Proofs.Expr.Structure

/-!
A measure that falls whenever a standard identity is applied. The rank of an expression adds up
the costs of its heads and the sizes of the left operands of its binary nodes: it falls when a
part is dropped, when an operator makes room for a cheaper one, and when a sum or a product is
regrouped to the right. It is at most quadratic in the size.
-/

set_option autoImplicit false

namespace SymbolicSimplifier

def Head.cost : Head → Nat
  | .binary .add => 4
  | .binary .mul => 3
  | .binary .pow => 2
  | _ => 1

theorem Head.cost_bounds (head : Head) : 1 ≤ head.cost ∧ head.cost ≤ 4 := by
  unfold cost
  split <;> omega

namespace Expr

def leftSize : Head → List Expr → Nat
  | .binary _, left :: _ => left.size
  | _, _ => 0

mutual

def rank : Expr → Nat
  | .node head args => head.cost + leftSize head args + rankAll args
  | _ => 0

def rankAll : List Expr → Nat
  | [] => 0
  | e :: es => rank e + rankAll es

end

theorem rankAll_eq_sum (es : List Expr) : rankAll es = (es.map rank).sum := by
  induction es with
  | nil => rfl
  | cons e es ih => simp [rankAll, ih]

@[simp] theorem rank_literal (n : Number) : (literal n).rank = 0 := by
  simp [rank]

@[simp] theorem rank_named (name : String) (n : Number) : (named name n).rank = 0 := by
  simp [rank]

@[simp] theorem rank_var (name : String) : (var name).rank = 0 := by
  simp [rank]

@[simp] theorem rank_node (head : Head) (args : List Expr) :
    (node head args).rank = head.cost + leftSize head args + (args.map rank).sum := by
  rw [rank, rankAll_eq_sum]

theorem leftSize_le (head : Head) (args : List Expr) :
    leftSize head args ≤ (args.map size).sum := by
  unfold leftSize
  split <;> simp

theorem leftSize_map_le (head : Head) (args : List Expr) (f : Expr → Expr)
    (smaller : ∀ a ∈ args, (f a).size ≤ a.size) :
    leftSize head (args.map f) ≤ leftSize head args := by
  cases head <;> cases args <;> simp_all [leftSize]

theorem rank_le (e : Expr) : e.rank ≤ e.size * (e.size + 4) := by
  induction e using Expr.induction with
  | node head args ih =>
    have cost := head.cost_bounds.2
    have left := leftSize_le head args
    have parts : (args.map rank).sum ≤ (args.map size).sum * ((args.map size).sum + 4) := by
      rw [← List.sum_map_mul_right]
      apply List.sum_le_sum
      intro a member
      have part : a.size ≤ (args.map size).sum :=
        List.single_le_sum (by simp) _ (List.mem_map_of_mem member)
      exact (ih a member).trans (Nat.mul_le_mul_left _ (by omega))
    rw [rank_node, size_node]
    linarith
  | _ => simp

theorem rank_eq_of_same {a b : Expr} (equal : a.same b = true) : a.rank = b.rank := by
  induction a using Expr.induction generalizing b with
  | literal n =>
    obtain ⟨m, rfl, _⟩ := (literal_same_iff ..).mp equal
    simp
  | named name n =>
    obtain ⟨m, rfl, _⟩ := (named_same_iff ..).mp equal
    simp
  | var name =>
    obtain rfl := (var_same_iff ..).mp equal
    rfl
  | node head as ih =>
    obtain ⟨bs, rfl, args⟩ := (node_same_iff ..).mp equal
    have left : leftSize head as = leftSize head bs := by
      cases args with
      | nil => rfl
      | cons first _ => cases head <;> simp [leftSize, size_eq_of_same first]
    simp only [rank_node, left, map_eq_of_same rank args fun a member b _ => ih a member]

structure Lighter (after before : Expr) : Prop where
  size_le : after.size ≤ before.size
  rank_lt : after.rank < before.rank

def LighterEq (after before : Expr) : Prop :=
  after = before ∨ Lighter after before

theorem Lighter.literal_node (n : Number) (head : Head) (args : List Expr) :
    Lighter (.literal n) (.node head args) := by
  have cost := head.cost_bounds.1
  constructor
  · simp
  · rw [rank_literal, rank_node]
    omega

theorem Lighter.trans {a b c : Expr} (first : Lighter a b) (second : Lighter b c) :
    Lighter a c :=
  ⟨first.size_le.trans second.size_le, first.rank_lt.trans second.rank_lt⟩

theorem Lighter.of_same {after before other : Expr} (lighter : Lighter after before)
    (equal : before.same other = true) : Lighter after other :=
  ⟨size_eq_of_same equal ▸ lighter.size_le, rank_eq_of_same equal ▸ lighter.rank_lt⟩

namespace LighterEq

theorem refl (e : Expr) : LighterEq e e :=
  .inl rfl

theorem size_le {after before : Expr} (lighter : LighterEq after before) :
    after.size ≤ before.size := by
  rcases lighter with rfl | lighter
  · exact Nat.le_refl _
  · exact lighter.size_le

theorem rank_le {after before : Expr} (lighter : LighterEq after before) :
    after.rank ≤ before.rank := by
  rcases lighter with rfl | lighter
  · exact Nat.le_refl _
  · exact lighter.rank_lt.le

theorem trans {a b c : Expr} (first : LighterEq a b) (second : LighterEq b c) : LighterEq a c := by
  rcases first with rfl | first
  · exact second
  · rcases second with rfl | second
    · exact .inr first
    · exact .inr (first.trans second)

theorem eq_of_rank_le {after before : Expr} (lighter : LighterEq after before)
    (unchanged : before.rank ≤ after.rank) : after = before := by
  rcases lighter with rfl | lighter
  · rfl
  · have falls := lighter.rank_lt
    omega

theorem eq_of_same {after before : Expr} (lighter : LighterEq after before)
    (equal : after.same before = true) : after = before :=
  lighter.eq_of_rank_le (rank_eq_of_same equal).ge

theorem antisymm {a b : Expr} (first : LighterEq a b) (second : LighterEq b a) : a = b :=
  first.eq_of_rank_le second.rank_le

theorem node_map (head : Head) (args : List Expr) (f : Expr → Expr)
    (lighter : ∀ a ∈ args, LighterEq (f a) a) :
    LighterEq (.node head (args.map f)) (.node head args) := by
  by_cases unchanged : ∀ a ∈ args, f a = a
  · exact .inl (congrArg (node head) ((List.map_congr_left unchanged).trans (List.map_id _)))
  · push Not at unchanged
    obtain ⟨a, member, changed⟩ := unchanged
    have left := leftSize_map_le head args f fun a member => (lighter a member).size_le
    have sizes : (args.map fun a => (f a).size).sum ≤ (args.map size).sum :=
      List.sum_le_sum fun a member => (lighter a member).size_le
    have ranks : (args.map fun a => (f a).rank).sum < (args.map rank).sum :=
      List.sum_lt_sum _ _ (fun a member => (lighter a member).rank_le)
        ⟨a, member, ((lighter a member).resolve_left changed).rank_lt⟩
    refine .inr ⟨?_, ?_⟩
    · simpa [Function.comp_def] using sizes
    · simp only [rank_node, List.map_map, Function.comp_def]
      omega

end LighterEq

end Expr

end SymbolicSimplifier
