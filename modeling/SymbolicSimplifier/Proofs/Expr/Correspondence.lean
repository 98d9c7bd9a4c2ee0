import SymbolicSimplifier.Proofs.Expr.Renaming

set_option autoImplicit false

namespace SymbolicSimplifier

namespace Expr

def IsLeaf (e : Expr) : Prop :=
  ∀ head args, e ≠ .node head args

@[simp] theorem isLeaf_literal (n : Number) : (literal n).IsLeaf := by
  simp [IsLeaf]

@[simp] theorem isLeaf_named (name : String) (n : Number) : (named name n).IsLeaf := by
  simp [IsLeaf]

@[simp] theorem isLeaf_var (name : String) : (var name).IsLeaf := by
  simp [IsLeaf]

theorem IsLeaf.bottomUp {α : Type} {e : Expr} (leaf : e.IsLeaf) (f : Expr → α)
    (node : Head → List α → α) : e.bottomUp f node = f e := by
  cases e with
  | node head args => exact absurd rfl (leaf head args)
  | _ => rfl

theorem IsLeaf.subterm_iff {e : Expr} (leaf : e.IsLeaf) (s : Expr) : Subterm s e ↔ s = e := by
  constructor
  · intro inside
    cases inside with
    | refl => rfl
    | arg => exact absurd rfl (leaf _ _)
  · rintro rfl
    exact .refl _

theorem IsLeaf.deeperThan {e : Expr} (leaf : e.IsLeaf) (limit : Nat) :
    e.deeperThan limit = false := by
  cases e with
  | node head args => exact absurd rfl (leaf head args)
  | _ => simp [Expr.deeperThan]

theorem anyDeeperThan_eq {as bs : List Expr}
    (args : List.Forall₂ (fun a b => ∀ limit, a.deeperThan limit = b.deeperThan limit) as bs)
    (limit : Nat) : anyDeeperThan as limit = anyDeeperThan bs limit := by
  induction args with
  | nil => rfl
  | cons first _ rest => rw [anyDeeperThan, anyDeeperThan, first limit, rest]

inductive BuiltAlike (related : Expr → Expr → Prop) : Expr → Expr → Prop
  | leaf {a b : Expr} : a.IsLeaf → b.IsLeaf → BuiltAlike related a b
  | node {head : Head} {as bs : List Expr} :
      List.Forall₂ related as bs → BuiltAlike related (.node head as) (.node head bs)

structure Correspondence (related : Expr → Expr → Prop) : Prop where
  literal : ∀ n, related (.literal n) (.literal n)
  named : ∀ name n, related (.named name n) (.named name n)
  node : ∀ head {as bs}, List.Forall₂ related as bs → related (.node head as) (.node head bs)
  builtAlike : ∀ {a b}, related a b → BuiltAlike related a b
  same : ∀ {a a' b b'}, related a a' → related b b' → a.same b = a'.same b'

namespace Correspondence

variable {related : Expr → Expr → Prop} (alike : Correspondence related)
include alike

theorem induction {P : Expr → Expr → Prop}
    (leaf : ∀ a b, related a b → a.IsLeaf → b.IsLeaf → P a b)
    (node : ∀ head as bs, List.Forall₂ related as bs → List.Forall₂ P as bs →
      P (.node head as) (.node head bs))
    {a b : Expr} (here : related a b) : P a b := by
  induction a using Expr.induction generalizing b with
  | node head as ih =>
    cases alike.builtAlike here with
    | leaf left right => exact leaf _ _ here left right
    | @node _ _ bs args =>
      exact node head as bs args (forall₂_imp_of_mem (fun a member _ here => ih a member here) args)
  | _ =>
    cases alike.builtAlike here with
    | leaf left right => exact leaf _ _ here left right

theorem deeperThan {a b : Expr} (here : related a b) (limit : Nat) :
    a.deeperThan limit = b.deeperThan limit := by
  refine alike.induction
    (P := fun a b => ∀ limit, a.deeperThan limit = b.deeperThan limit) ?leaf ?node here limit
  case leaf =>
    intro a b _ left right limit
    rw [left.deeperThan, right.deeperThan]
  case node =>
    intro head as bs _ args limit
    cases limit with
    | zero => rfl
    | succ limit => exact anyDeeperThan_eq args limit

end Correspondence

theorem eq_correspondence : Correspondence Eq where
  literal _ := rfl
  named _ _ := rfl
  node head as bs args := by
    rw [List.forall₂_eq_eq_eq] at args
    exact congrArg (node head) args
  builtAlike {a b} equal := by
    subst equal
    cases a with
    | node head args => exact .node (List.forall₂_same.mpr fun _ _ => rfl)
    | _ => exact .leaf (by simp) (by simp)
  same := by
    rintro a _ b _ rfl rfl
    rfl

theorem same_correspondence : Correspondence fun a b => a.same b = true where
  literal _ := same_refl _
  named _ _ := same_refl _
  node head as bs args := (node_same_iff ..).mpr ⟨bs, rfl, args⟩
  builtAlike {a b} equal := by
    cases a with
    | node head args =>
      obtain ⟨bs, rfl, args⟩ := (node_same_iff ..).mp equal
      exact .node args
    | _ =>
      cases b with
      | node => simp at equal
      | _ => exact .leaf (by simp) (by simp)
  same {a a' b b'} left right := by
    rw [Bool.eq_iff_iff]
    constructor
    · exact fun equal => same_trans (same_symm left) (same_trans equal right)
    · exact fun equal => same_trans left (same_trans equal (same_symm right))

section Renaming

variable {f : String → String} {names : Set String}

def Renamed (f : String → String) (names : Set String) (a b : Expr) : Prop :=
  a.VarsIn names ∧ a.rename f = b

theorem forall₂_renamed_iff (as bs : List Expr) :
    List.Forall₂ (Renamed f names) as bs ↔
      (∀ a ∈ as, a.VarsIn names) ∧ as.map (rename f) = bs := by
  unfold Renamed
  rw [List.forall₂_and_left, ← List.forall₂_map_left_iff, List.forall₂_eq_eq_eq]

theorem renamed_correspondence (injective : Set.InjOn f names) :
    Correspondence (Renamed f names) where
  literal _ := ⟨by simp [VarsIn], rfl⟩
  named _ _ := ⟨by simp [VarsIn], rfl⟩
  node head as bs args := by
    obtain ⟨inside, rfl⟩ := (forall₂_renamed_iff ..).mp args
    exact ⟨(varsIn_node ..).mpr inside, rename_node ..⟩
  builtAlike {a b} here := by
    obtain ⟨inside, rfl⟩ := here
    cases a with
    | node head args =>
      rw [rename_node]
      exact .node ((forall₂_renamed_iff ..).mpr ⟨(varsIn_node ..).mp inside, rfl⟩)
    | _ => exact .leaf (by simp) (by simp)
  same := by
    rintro a _ b _ ⟨left, rfl⟩ ⟨right, rfl⟩
    exact (same_rename injective left right).symm

end Renaming

end Expr

end SymbolicSimplifier
