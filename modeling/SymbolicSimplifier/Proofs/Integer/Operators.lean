import Mathlib.Data.Int.Bitwise
import Mathlib.Data.Rat.Cast.Order
import SymbolicSimplifier.Folding

set_option autoImplicit false

namespace SymbolicSimplifier

def UnaryOp.onInteger : UnaryOp → Int → Int
  | .plus, a => a
  | .minus, a => -a
  | .complement, a => a.not

def BinaryOp.onIntegers : BinaryOp → Int → Int → Int
  | .add, a, b => a + b
  | .sub, a, b => a - b
  | .mul, a, b => a * b
  | .div, a, b => a / b
  | .pow, a, b => a ^ b.toNat
  | .eq, a, b => if a = b then 1 else 0
  | .lt, a, b => if a < b then 1 else 0
  | .le, a, b => if a ≤ b then 1 else 0
  | .gt, a, b => if a > b then 1 else 0
  | .ge, a, b => if a ≥ b then 1 else 0
  | .and, a, b => a.land b
  | .or, a, b => a.lor b

def BinaryOp.DefinedOn : BinaryOp → Int → Int → Prop
  | .div, a, b => b ≠ 0 ∧ b ∣ a
  | .pow, _, b => 0 ≤ b
  | _, _, _ => True

namespace Bits

theorem and_add_ldiff (m n : Nat) : (m &&& n) + Nat.ldiff m n = m := by
  induction m using Nat.binaryRec generalizing n with
  | zero => simp [Nat.ldiff]
  | bit a m ih =>
    rw [← Nat.bit_bodd_div2 n, Nat.land_bit, Nat.ldiff_bit]
    have rest := ih n.div2
    cases a <;> cases n.bodd <;> simp only [Nat.bit_val, Bool.and_true, Bool.and_false,
      Bool.not_true, Bool.not_false, Bool.toNat_true, Bool.toNat_false] <;> omega

theorem without_eq_ldiff (m n : Nat) : without m n = Nat.ldiff m n := by
  have parts := and_add_ldiff m n
  unfold without
  omega

theorem and_eq_land (a b : Int) : Bits.and a b = a.land b := by
  cases a <;> cases b <;> simp [Bits.and, Int.land, without_eq_ldiff]

theorem or_eq_lor (a b : Int) : Bits.or a b = a.lor b := by
  cases a <;> cases b <;> simp [Bits.or, Int.lor, without_eq_ldiff]

theorem not_eq_lnot (a : Int) : Bits.not a = a.not := by
  cases a with
  | ofNat n =>
    change -(n : Int) - 1 = Int.negSucc n
    omega
  | negSucc n =>
    change -Int.negSucc n - 1 = (n : Int)
    omega

end Bits

namespace Number

theorem intPower_eq_pow (base : Int) (exponent : Nat) :
    intPower base exponent = base ^ exponent := by
  unfold intPower
  split
  case isTrue zero => simp [zero]
  case isFalse positive =>
    split
    case isTrue small =>
      obtain rfl | rfl | rfl : base = -1 ∨ base = 0 ∨ base = 1 := by omega
      · rcases Nat.mod_two_eq_zero_or_one exponent with even | odd
        · simp [even, Even.neg_one_pow (Nat.even_iff.mpr even)]
        · simp [odd, Odd.neg_one_pow (Nat.odd_iff.mpr odd)]
      · simp [zero_pow positive]
      · simp
    case isFalse => rfl

theorem equals_int (a b : Int) : (int a).equals (.int b) = decide (a = b) := by
  simp [equals, same, isNaN, exact]

theorem less_int (a b : Int) : (int a).less (.int b) = decide (a < b) := by
  simp [less, exact, ExactValue.less]

theorem atMost_int (a b : Int) : (int a).atMost (.int b) = decide (a ≤ b) := by
  rw [atMost, less_int, equals_int, ← Bool.decide_or]
  exact decide_eq_decide.mpr le_iff_lt_or_eq.symm

theorem pow_int (a b : Int) (natural : 0 ≤ b) :
    (int a).pow (.int b) = .ok (.number (.int (a ^ b.toNat))) := by
  simp [pow, natural, intPower_eq_pow]

end Number

namespace Prelude

theorem literalValue?_unary_iff (handlers : Prelude) (head : Head) (a : Expr) (n : Number) :
    handlers.literalValue? head [a] = some n ↔
      ∃ k, a.literal? = some k ∧ handlers.result? head [k] = some n := by
  simp [literalValue?, List.mapM_cons, Option.bind_eq_some_iff]

theorem literalValue?_binary_iff (handlers : Prelude) (head : Head) (a b : Expr) (n : Number) :
    handlers.literalValue? head [a, b] = some n ↔
      ∃ j k, a.literal? = some j ∧ b.literal? = some k ∧
        handlers.result? head [j, k] = some n := by
  simp [literalValue?, List.mapM_cons, Option.bind_eq_some_iff]

def resultOf : Except Fault (Option Outcome) → Option Number
  | .error _ => some .nan
  | .ok outcome => outcome.map Outcome.toNumber

def truth (holds : Bool) : Option Number :=
  some (.int (if holds then 1 else 0))

theorem operators_unary (op : UnaryOp) (a : Int) :
    operators.result? (.unary op) [.int a] = some (.int (op.onInteger a)) := by
  cases op with
  | plus => rfl
  | minus => rfl
  | complement => exact congrArg (fun n => some (Number.int n)) (Bits.not_eq_lnot a)

theorem operators_binary (op : BinaryOp) (a b : Int) (defined : op.DefinedOn a b) :
    operators.result? (.binary op) [.int a, .int b] = some (.int (op.onIntegers a b)) := by
  cases op with
  | add => rfl
  | sub => rfl
  | mul => rfl
  | div =>
    have exact : a % b = 0 := Int.emod_eq_zero_of_dvd defined.2
    have quotient : (Number.int a).div (.int b) = .ok (.int (a / b)) := by
      simp [Number.div, defined.1, exact]
    change resultOf ((some ∘ Outcome.number) <$> (Number.int a).div (.int b)) = _
    rw [quotient]
    rfl
  | pow =>
    change resultOf (some <$> (Number.int a).pow (.int b)) = _
    rw [Number.pow_int a b defined]
    rfl
  | eq =>
    change truth ((Number.int a).equals (.int b)) = _
    simp [truth, Number.equals_int, BinaryOp.onIntegers]
  | lt =>
    change truth ((Number.int a).less (.int b)) = _
    simp [truth, Number.less_int, BinaryOp.onIntegers]
  | le =>
    change truth ((Number.int a).atMost (.int b)) = _
    simp [truth, Number.atMost_int, BinaryOp.onIntegers]
  | gt =>
    change truth ((Number.int b).less (.int a)) = _
    simp [truth, Number.less_int, BinaryOp.onIntegers]
  | ge =>
    change truth ((Number.int b).atMost (.int a)) = _
    simp [truth, Number.atMost_int, BinaryOp.onIntegers]
  | and => exact congrArg (fun n => some (Number.int n)) (Bits.and_eq_land a b)
  | or => exact congrArg (fun n => some (Number.int n)) (Bits.or_eq_lor a b)

end Prelude

end SymbolicSimplifier
