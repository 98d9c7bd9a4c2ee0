import Mathlib.Algebra.Field.Rat
import Mathlib.Data.Rat.Cast.Order
import SymbolicSimplifier.Number.Basic

set_option autoImplicit false

namespace SymbolicSimplifier

theorem Binary64.dyadic_eq_mul_zpow (mantissa : Nat) (exponent : Int) :
    dyadic mantissa exponent = mantissa * (2 : Rat) ^ exponent := by
  unfold dyadic
  split
  case isTrue zero => simp [zero]
  case isFalse =>
    split
    case isTrue natural =>
      obtain ⟨shift, rfl⟩ := Int.eq_ofNat_of_zero_le natural
      change ((mantissa * 2 ^ shift : Nat) : Rat) = _
      push_cast
      rw [zpow_natCast]
    case isFalse negative =>
      obtain ⟨shift, rfl⟩ := Int.exists_eq_neg_ofNat (Int.le_of_lt (Int.not_le.mp negative))
      simp only [neg_neg, Int.toNat_natCast, Rat.mkRat_eq_div, zpow_neg, zpow_natCast]
      change (mantissa : Rat) / ((2 ^ shift : Nat) : Rat) = _
      push_cast
      exact div_eq_mul_inv _ _

theorem Binary64.exact_finite (negative : Bool) (mantissa : Nat) (exponent : Int) :
    (Binary64.finite negative mantissa exponent).exact =
      .finite ((if negative then -1 else 1) * mantissa * 2 ^ exponent) := by
  cases negative <;> simp [exact, dyadic_eq_mul_zpow]

namespace Number

inductive Stands : Number → ExactValue → Prop
  | int (n : Int) : Stands (.int n) (.finite n)
  | finite {x : Float} {negative : Bool} {mantissa : Nat} {exponent : Int} :
      Binary64.ofFloat x = .finite negative mantissa exponent →
      Stands (.float x) (.finite ((if negative then -1 else 1) * mantissa * 2 ^ exponent))
  | infinite {x : Float} {negative : Bool} :
      Binary64.ofFloat x = .infinite negative → Stands (.float x) (.infinite negative)
  | undefined {x : Float} : Binary64.ofFloat x = .undefined → Stands (.float x) .undefined

theorem stands_exact (n : Number) : n.Stands n.exact := by
  cases n with
  | int n => exact .int n
  | float x =>
    rw [exact]
    cases fields : Binary64.ofFloat x with
    | finite negative mantissa exponent =>
      rw [Binary64.exact_finite]
      exact .finite fields
    | infinite negative => exact .infinite fields
    | undefined => exact .undefined fields

theorem Stands.exact_eq {n : Number} {value : ExactValue} (stands : n.Stands value) :
    n.exact = value := by
  cases stands with
  | int n => rfl
  | finite fields => rw [exact, fields, Binary64.exact_finite]
  | infinite fields => rw [exact, fields, Binary64.exact]
  | undefined fields => rw [exact, fields, Binary64.exact]

theorem stands_iff (n : Number) (value : ExactValue) : n.Stands value ↔ n.exact = value := by
  constructor
  · exact Stands.exact_eq
  · rintro rfl
    exact n.stands_exact

end Number

end SymbolicSimplifier
