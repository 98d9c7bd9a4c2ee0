import SymbolicSimplifier.Expr.Arithmetic
import SymbolicSimplifier.Proofs.Integer.Meaning
import SymbolicSimplifier.Proofs.Matching.Unification

set_option autoImplicit false

namespace SymbolicSimplifier

namespace Expr

inductive Exponent : Expr → Prop
  | literal (n : Nat) : Exponent (.literal (.int n))
  | add {a b : Expr} : Exponent a → Exponent b → Exponent (.node (.binary .add) [a, b])

inductive Integral (known : String → Prop) : Expr → Prop
  | literal (n : Int) : Integral known (.literal (.int n))
  | var {name : String} : known name → Integral known (.var name)
  | unary (op : UnaryOp) {a : Expr} : Integral known a → Integral known (.node (.unary op) [a])
  | binary {op : BinaryOp} {a b : Expr} : op ≠ .div → op ≠ .pow → Integral known a →
      Integral known b → Integral known (.node (.binary op) [a, b])
  | power {a b : Expr} : Integral known a → Integral known b → Exponent b →
      Integral known (.node (.binary .pow) [a, b])

variable {known : String → Prop}

@[simp] theorem integral_unary_iff (op : UnaryOp) (a : Expr) :
    Integral known (.node (.unary op) [a]) ↔ Integral known a := by
  constructor
  · intro integral
    cases integral with
    | unary _ integral => exact integral
  · exact .unary op

@[simp] theorem integral_binary_iff (op : BinaryOp) (other : op ≠ .pow) (a b : Expr) :
    Integral known (.node (.binary op) [a, b]) ↔
      op ≠ .div ∧ Integral known a ∧ Integral known b := by
  constructor
  · intro integral
    cases integral with
    | binary whole _ left right => exact ⟨whole, left, right⟩
    | power => exact absurd rfl other
  · rintro ⟨whole, left, right⟩
    exact .binary whole other left right

@[simp] theorem integral_power_iff (a b : Expr) :
    Integral known (.node (.binary .pow) [a, b]) ↔
      Integral known a ∧ Integral known b ∧ Exponent b := by
  constructor
  · intro integral
    cases integral with
    | binary _ other => exact absurd rfl other
    | power left right exponent => exact ⟨left, right, exponent⟩
  · rintro ⟨left, right, exponent⟩
    exact .power left right exponent

@[simp] theorem not_integral_function (name : String) (args : List Expr) :
    ¬ Integral known (.node (.function name) args) := by
  intro integral
  cases integral

@[simp] theorem integral_int (n : Int) : Integral known (.literal (.int n)) :=
  .literal n

@[simp] theorem exponent_int_iff (n : Int) : Exponent (.literal (.int n)) ↔ 0 ≤ n := by
  constructor
  · intro exponent
    cases exponent
    exact Int.natCast_nonneg _
  · intro natural
    obtain ⟨m, rfl⟩ := Int.eq_ofNat_of_zero_le natural
    exact .literal m

@[simp] theorem exponent_add_iff (a b : Expr) :
    Exponent (.node (.binary .add) [a, b]) ↔ Exponent a ∧ Exponent b := by
  constructor
  · intro exponent
    cases exponent with
    | add left right => exact ⟨left, right⟩
  · rintro ⟨left, right⟩
    exact .add left right

theorem Integral.arg {head : Head} {args : List Expr} (integral : Integral known (.node head args))
    {a : Expr} (member : a ∈ args) : Integral known a := by
  cases integral with
  | unary _ operand =>
    obtain rfl := List.mem_singleton.mp member
    exact operand
  | binary _ _ left right =>
    obtain rfl | rfl := List.mem_pair.mp member
    · exact left
    · exact right
  | power left right =>
    obtain rfl | rfl := List.mem_pair.mp member
    · exact left
    · exact right

theorem Integral.of_subterm {s e : Expr} (integral : Integral known e) (inside : Subterm s e) :
    Integral known s := by
  induction inside with
  | refl => exact integral
  | arg member _ ih => exact ih (integral.arg member)

theorem Exponent.meaning_nonneg {e : Expr} (exponent : Exponent e) (values : String → Int) :
    0 ≤ e.meaning values := by
  induction exponent with
  | literal n => exact Int.natCast_nonneg n
  | add _ _ left right => exact Int.add_nonneg left right

theorem Integral.defined {e : Expr} (integral : Integral known e) (values : String → Int) :
    Defined values e := by
  induction integral with
  | literal n => exact .literal n
  | var => exact .var _
  | unary op _ ih => exact .unary op ih
  | @binary op _ _ whole other _ _ left right =>
    have everywhere (a b : Int) : op.DefinedOn a b := by
      cases op <;> trivial
    exact .binary op left right (everywhere _ _)
  | power _ _ exponent left right => exact .binary .pow left right (exponent.meaning_nonneg values)

theorem Integral.knows {e : Expr} (integral : Integral known e) :
    ∀ name ∈ e.varNames, known name := by
  induction integral with
  | literal => simp
  | var here => simpa using here
  | unary _ _ ih => simpa using ih
  | binary _ _ _ _ left right => simpa [or_imp, forall_and] using ⟨left, right⟩
  | power _ _ _ left right => simpa [or_imp, forall_and] using ⟨left, right⟩

structure Denotes (known : String → Prop) (values : String → Int) (e : Expr) (n : Int) : Prop where
  integral : Integral known e
  meaning : e.meaning values = n

theorem Denotes.evaluate? {values : String → Int} {e : Expr} {n : Int}
    (denotes : Denotes known values e n) {bindings : Bindings}
    (bound : ∀ name, known name → bindings.find? name = some (.literal (.int (values name)))) :
    (e.substitute bindings).evaluate? .operators = some (.int n) := by
  have computes := (denotes.integral.defined values).computes_substitute fun name occurs =>
    bound name (denotes.integral.knows name occurs)
  rw [denotes.meaning] at computes
  exact computes.evaluates

inductive IntegerTree : Expr → Prop
  | literal (n : Int) : IntegerTree (.literal (.int n))
  | var (name : String) : IntegerTree (.var name)
  | unary (op : UnaryOp) {a : Expr} : IntegerTree a → IntegerTree (.unary op a)
  | binary {op : BinaryOp} {a b : Expr} : op ≠ .div → op ≠ .pow → IntegerTree a →
      IntegerTree b → IntegerTree (.binary op a b)
  | power {a : Expr} (n : Nat) : IntegerTree a → IntegerTree (.power a (.literal (.int n)))

theorem IntegerTree.integral {known : String → Prop} {e : Expr} (tree : IntegerTree e)
    (bound : ∀ name ∈ e.varNames, known name) : Integral known e := by
  induction tree with
  | literal n => exact .literal n
  | var name => exact .var (bound name (by simp))
  | unary op _ ih =>
    simp at bound
    exact .unary op (ih bound)
  | binary whole other _ _ left right =>
    simp [or_imp, forall_and] at bound
    exact .binary whole other (left bound.1) (right bound.2)
  | power n _ ih =>
    simp at bound
    exact .power (ih bound) (.literal n) (.literal n)

section FloatFree

def isFloatFree : Expr → Bool :=
  bottomUp
    (fun
      | .literal (.float _) => false
      | _ => true)
    (fun _ parts => parts.all id)

@[simp] theorem isFloatFree_node (head : Head) (args : List Expr) :
    (node head args).isFloatFree = args.all isFloatFree := by
  rw [isFloatFree, bottomUp_node, List.all_map]
  rfl

theorem Integral.isFloatFree {e : Expr} (integral : Integral known e) : e.isFloatFree = true := by
  induction integral with
  | literal => rfl
  | var => rfl
  | unary _ _ ih => simp [ih]
  | binary _ _ _ _ left right => simp [left, right]
  | power _ _ _ left right => simp [left, right]

theorem isFloatFree_substitute {template : Expr} {bindings : Bindings}
    (free : template.isFloatFree = true)
    (bound : ∀ name ∈ template.varNames, (bindings.lookup name).isFloatFree = true) :
    (template.substitute bindings).isFloatFree = true := by
  induction template using Expr.induction with
  | literal n => exact free
  | named name n => rfl
  | var name => exact bound name (by simp)
  | node head args ih =>
    simp only [isFloatFree_node, List.all_eq_true] at free
    simp only [varNames_node, List.mem_flatMap] at bound
    simp only [substitute_node, isFloatFree_node, List.all_map, List.all_eq_true,
      Function.comp_apply]
    intro a member
    exact ih a member (free a member) fun name occurs => bound name ⟨a, member, occurs⟩

-- Equality identifies an integer with the float of the same value, so both sides need a premise.
theorem Integral.eq_of_same {a e : Expr} (integral : Integral known e)
    (free : a.isFloatFree = true) (equal : a.same e = true) : a = e := by
  induction a using Expr.induction generalizing e with
  | literal n =>
    obtain ⟨m, rfl, exact⟩ := (literal_same_iff ..).mp equal
    cases integral with
    | literal m =>
      cases n with
      | int n =>
        simp only [Number.exact, ExactValue.finite.injEq, Int.cast_inj] at exact
        rw [exact]
      | float => cases free
  | named name n =>
    obtain ⟨m, rfl, _⟩ := (named_same_iff ..).mp equal
    cases integral
  | var name => exact ((var_same_iff ..).mp equal).symm
  | node head as ih =>
    obtain ⟨bs, rfl, args⟩ := (node_same_iff ..).mp equal
    simp only [isFloatFree_node, List.all_eq_true] at free
    have parts := map_eq_of_same id args fun a left b right =>
      ih a left (integral.arg right) (free a left)
    rw [List.map_id, List.map_id] at parts
    rw [parts]

end FloatFree

end Expr

end SymbolicSimplifier
