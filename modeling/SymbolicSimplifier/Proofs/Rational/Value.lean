import Mathlib.Algebra.Field.Rat
import Mathlib.Data.Rat.Cast.Order
import SymbolicSimplifier.Proofs.Expr.Structure

set_option autoImplicit false

namespace SymbolicSimplifier

def ExactValue.rational? : ExactValue → Option Rat
  | .finite value => some value
  | .infinite _ => none
  | .undefined => none

def UnaryOp.onRational? : UnaryOp → Rat → Option Rat
  | .plus, a => some a
  | .minus, a => some (-a)
  | .complement, _ => none

def BinaryOp.onRationals? : BinaryOp → Rat → Rat → Option Rat
  | .add, a, b => some (a + b)
  | .sub, a, b => some (a - b)
  | .mul, a, b => some (a * b)
  | .div, a, b => if b = 0 then none else some (a / b)
  | .pow, a, b => if b.den = 1 ∧ (a ≠ 0 ∨ 0 < b) then some (a ^ b.num) else none
  | _, _, _ => none

def Head.onRationals? : Head → List (Option Rat) → Option Rat
  | .unary op, [a] => a.bind op.onRational?
  | .binary op, [a, b] => a.bind fun a => b.bind fun b => op.onRationals? a b
  | _, _ => none

namespace BinaryOp

@[simp] theorem add_onRationals? (a b : Rat) : onRationals? .add a b = some (a + b) :=
  rfl

@[simp] theorem sub_onRationals? (a b : Rat) : onRationals? .sub a b = some (a - b) :=
  rfl

@[simp] theorem mul_onRationals? (a b : Rat) : onRationals? .mul a b = some (a * b) :=
  rfl

theorem div_eq_some_iff (a b v : Rat) :
    onRationals? .div a b = some v ↔ b ≠ 0 ∧ a / b = v := by
  simp [onRationals?]

theorem pow_eq_some_iff (a b v : Rat) :
    onRationals? .pow a b = some v ↔ ∃ n : Int, b = n ∧ (a ≠ 0 ∨ 0 < n) ∧ a ^ n = v := by
  simp only [onRationals?, Option.ite_none_right_eq_some, Option.some.injEq]
  constructor
  · rintro ⟨⟨whole, defined⟩, rfl⟩
    refine ⟨b.num, ((Rat.den_eq_one_iff b).mp whole).symm, ?_, rfl⟩
    simpa [Rat.num_pos] using defined
  · rintro ⟨n, rfl, defined, rfl⟩
    simpa using defined

theorem zero_pow_eq_zero {b v : Rat} (defined : onRationals? .pow 0 b = some v) : v = 0 := by
  obtain ⟨n, _, base, rfl⟩ := (pow_eq_some_iff ..).mp defined
  have positive : 0 < n := base.resolve_left (by simp)
  exact zero_zpow n positive.ne'

theorem pow_mul_pow {a b c p q : Rat} (left : onRationals? .pow a b = some p)
    (right : onRationals? .pow a c = some q) : onRationals? .pow a (b + c) = some (p * q) := by
  obtain ⟨m, rfl, leftBase, rfl⟩ := (pow_eq_some_iff ..).mp left
  obtain ⟨n, rfl, rightBase, rfl⟩ := (pow_eq_some_iff ..).mp right
  refine (pow_eq_some_iff ..).mpr ⟨m + n, (Int.cast_add m n).symm, ?_⟩
  by_cases zero : a = 0
  · have leftPositive : 0 < m := leftBase.resolve_left (not_not.mpr zero)
    have rightPositive : 0 < n := rightBase.resolve_left (not_not.mpr zero)
    have positive : 0 < m + n := by omega
    simp [zero, positive, zero_zpow _ leftPositive.ne', zero_zpow _ positive.ne']
  · exact ⟨.inl zero, zpow_add₀ zero m n⟩

theorem pow_div_pow {a b c p q : Rat} (left : onRationals? .pow a b = some p)
    (right : onRationals? .pow a c = some q) (divisor : q ≠ 0) :
    onRationals? .pow a (b - c) = some (p / q) := by
  -- Where the divisor is a power of zero it is zero, so the base is something else.
  have base : a ≠ 0 := by
    rintro rfl
    exact divisor (zero_pow_eq_zero right)
  obtain ⟨m, rfl, _, rfl⟩ := (pow_eq_some_iff ..).mp left
  obtain ⟨n, rfl, _, rfl⟩ := (pow_eq_some_iff ..).mp right
  exact (pow_eq_some_iff ..).mpr
    ⟨m - n, (Int.cast_sub m n).symm, .inl base, zpow_sub₀ base m n⟩

end BinaryOp

namespace Expr

section Value

variable (values : String → Rat)

def value? : Expr → Option Rat :=
  bottomUp
    (fun
      | .literal n => n.exact.rational?
      | .named _ n => n.exact.rational?
      | .var name => some (values name)
      | .node _ _ => none)
    Head.onRationals?

theorem value?_node (head : Head) (args : List Expr) :
    (node head args).value? values = head.onRationals? (args.map (value? values)) :=
  bottomUp_node _ _ head args

@[simp] theorem value?_literal (n : Number) : (literal n).value? values = n.exact.rational? :=
  rfl

@[simp] theorem value?_named (name : String) (n : Number) :
    (named name n).value? values = n.exact.rational? :=
  rfl

@[simp] theorem value?_var (name : String) : (var name).value? values = some (values name) :=
  rfl

@[simp] theorem value?_unary (op : UnaryOp) (a : Expr) :
    (node (.unary op) [a]).value? values = (a.value? values).bind op.onRational? :=
  rfl

@[simp] theorem value?_binary (op : BinaryOp) (a b : Expr) :
    (node (.binary op) [a, b]).value? values =
      (a.value? values).bind fun a => (b.value? values).bind fun b => op.onRationals? a b :=
  rfl

end Value

variable {values : String → Rat}

theorem value?_eq_of_same {a b : Expr} (equal : a.same b = true) :
    a.value? values = b.value? values := by
  refine bottomUp_eq_of_same _ _ ?_ equal
  intro a b equal
  cases a with
  | literal n =>
    obtain ⟨m, rfl, numbers⟩ := (literal_same_iff ..).mp equal
    exact congrArg ExactValue.rational? numbers
  | named name n =>
    obtain ⟨m, rfl, numbers⟩ := (named_same_iff ..).mp equal
    exact congrArg ExactValue.rational? numbers
  | var name =>
    obtain rfl := (var_same_iff ..).mp equal
    rfl
  | node head args =>
    obtain ⟨_, rfl, _⟩ := (node_same_iff ..).mp equal
    rfl

theorem exists_value?_arg {head : Head} {args : List Expr} {v : Rat}
    (defined : (node head args).value? values = some v) {a : Expr} (member : a ∈ args) :
    ∃ p, a.value? values = some p := by
  rw [value?_node] at defined
  unfold Head.onRationals? at defined
  split at defined
  case h_1 op p only =>
    obtain ⟨b, rfl, rfl⟩ := List.map_eq_singleton_iff.mp only
    obtain rfl := List.mem_singleton.mp member
    obtain ⟨p, value, _⟩ := Option.bind_eq_some_iff.mp defined
    exact ⟨p, value⟩
  case h_2 op p q both =>
    obtain ⟨b, rest, rfl, rfl, single⟩ := List.map_eq_cons_iff.mp both
    obtain ⟨c, rfl, rfl⟩ := List.map_eq_singleton_iff.mp single
    obtain ⟨p, left, defined⟩ := Option.bind_eq_some_iff.mp defined
    obtain ⟨q, right, _⟩ := Option.bind_eq_some_iff.mp defined
    obtain rfl | rfl := List.mem_pair.mp member
    · exact ⟨p, left⟩
    · exact ⟨q, right⟩
  case h_3 => cases defined

theorem value?_node_map {head : Head} {args : List Expr} {f : Expr → Expr}
    {inner : String → Rat} (equal : ∀ a ∈ args, (f a).value? values = a.value? inner) :
    (node head (args.map f)).value? values = (node head args).value? inner := by
  rw [value?_node, value?_node, List.map_map]
  exact congrArg head.onRationals? (List.map_congr_left equal)

section Substitution

variable {bindings : Bindings}

theorem exists_value?_lookup {template : Expr} {v : Rat}
    (defined : (template.substitute bindings).value? values = some v) :
    ∀ name ∈ template.varNames, ∃ p, (bindings.lookup name).value? values = some p := by
  induction template using Expr.induction generalizing v with
  | literal => simp
  | named => simp
  | var name => simpa using ⟨v, defined⟩
  | node head args ih =>
    rw [substitute_node] at defined
    rw [varNames_node]
    intro name occurs
    obtain ⟨a, member, occurs⟩ := List.mem_flatMap.mp occurs
    obtain ⟨p, here⟩ := exists_value?_arg defined (List.mem_map_of_mem member)
    exact ih a member here name occurs

theorem value?_substitute {template : Expr} {inner : String → Rat}
    (bound : ∀ name ∈ template.varNames,
      (bindings.lookup name).value? values = some (inner name)) :
    (template.substitute bindings).value? values = template.value? inner := by
  induction template using Expr.induction with
  | literal => rfl
  | named => rfl
  | var name => exact bound name (by simp)
  | node head args ih =>
    rw [varNames_node] at bound
    rw [substitute_node]
    apply value?_node_map
    intro a member
    exact ih a member fun name occurs => bound name (List.mem_flatMap.mpr ⟨a, member, occurs⟩)

end Substitution

end Expr

end SymbolicSimplifier
