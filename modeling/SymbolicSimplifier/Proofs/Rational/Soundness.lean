import SymbolicSimplifier.Proofs.Identities.Lightening
import SymbolicSimplifier.Proofs.Rational.Value
import SymbolicSimplifier.Proofs.Simplifier.Path

set_option autoImplicit false

namespace SymbolicSimplifier

open SymbolicSimplifier.Expr

namespace Rule

def IsIdentity (rule : Rule) : Prop :=
  ∀ values v, rule.pattern.value? values = some v → rule.replacement.value? values = some v

variable {values : String → Rat}

theorem IsIdentity.substitute {rule : Rule} (identity : rule.IsIdentity) (closed : rule.IsClosed)
    {bindings : Bindings} {v : Rat}
    (defined : (rule.pattern.substitute bindings).value? values = some v) :
    (rule.replacement.substitute bindings).value? values = some v := by
  -- The expressions put in have values, and only these matter.
  let inner (name : String) : Rat := ((bindings.lookup name).value? values).getD 0
  have bound : ∀ name ∈ rule.pattern.varNames,
      (bindings.lookup name).value? values = some (inner name) := by
    intro name occurs
    obtain ⟨p, value⟩ := exists_value?_lookup defined name occurs
    simp [inner, value]
  rw [value?_substitute bound] at defined
  rw [value?_substitute fun name occurs => bound name (closed name occurs)]
  exact identity inner v defined

theorem IsIdentity.contract {rule : Rule} (identity : rule.IsIdentity) (closed : rule.IsClosed)
    {e : Expr} {v : Rat} (defined : e.value? values = some v) :
    (rule.contract e).value? values = some v := by
  unfold Rule.contract
  cases contracted : rule.contract? e with
  | none => exact defined
  | some result =>
    obtain ⟨bindings, matched, rfl⟩ := Option.map_eq_some_iff.mp contracted
    rw [← value?_eq_of_same (unifies_of_matchFrom matched).equal] at defined
    exact identity.substitute closed defined

end Rule

namespace Identities

theorem zeroPow_isIdentity : (rule "zero-pow" (.power 0 x) 0).IsIdentity := by
  intro values v defined
  simp [Number.exact, ExactValue.rational?] at defined ⊢
  exact (BinaryOp.zero_pow_eq_zero defined).symm

theorem powProduct_isIdentity :
    (rule "pow-product" (x.power y * x.power z) (x.power (y + z))).IsIdentity := by
  intro values v defined
  simp [Option.bind_eq_some_iff] at defined
  obtain ⟨p, left, q, right, rfl⟩ := defined
  simp [BinaryOp.pow_mul_pow left right]

theorem powQuotient_isIdentity :
    (rule "pow-quotient" (x.power y / x.power z) (x.power (y - z))).IsIdentity := by
  intro values v defined
  simp [Option.bind_eq_some_iff, BinaryOp.div_eq_some_iff] at defined
  obtain ⟨p, left, q, right, divisor, rfl⟩ := defined
  simp [BinaryOp.pow_div_pow left right divisor]

theorem arithmetic_isIdentity : ∀ rule ∈ arithmetic.rules, rule.IsIdentity := by
  simp only [arithmetic, List.forall_mem_cons, List.not_mem_nil, false_implies, implies_true,
    and_true, true_and, zeroPow_isIdentity, powProduct_isIdentity, powQuotient_isIdentity]
  and_intros
  -- All exponents are numbers now. Those that are not allowed are closed as impossible here, and
  -- what is left are equations of a field whose divisors are known not to be zero.
  all_goals
    intro values v defined
    simp [Number.exact, ExactValue.rational?, UnaryOp.onRational?, BinaryOp.onRationals?]
      at defined ⊢
  all_goals grind

end Identities

namespace Expr

variable {values : String → Rat} {contract : Expr → Expr}

theorem value?_pass (keeps : ∀ e v, e.value? values = some v → (contract e).value? values = some v)
    {e : Expr} {v : Rat} (defined : e.value? values = some v) :
    (e.pass .empty contract).value? values = some v := by
  induction e using Expr.induction generalizing v with
  | node head args ih =>
    rw [pass_node, passNode, Prelude.literalValue?_empty]
    apply keeps
    rw [← defined]
    apply value?_node_map
    intro a member
    obtain ⟨p, value⟩ := exists_value?_arg defined member
    rw [value, ih a member value]
  | _ => exact keeps _ _ defined

end Expr

namespace Simplifier

def arithmetic : Simplifier :=
  ⟨Identities.arithmetic, .empty, standardLimit⟩

variable {values : String → Rat}

theorem arithmetic_advance?_value? {e : Expr} {step : Step} {v : Rat}
    (defined : e.value? values = some v) (advanced : arithmetic.advance? e = some step) :
    step.after.value? values = some v := by
  obtain ⟨earlier, rule, later, table, rfl, _⟩ | ⟨rfl, _⟩ := advance?_eq_some advanced
  · have member : rule ∈ Identities.arithmetic.rules := by
      change Identities.arithmetic.rules = _ at table
      simp [table]
    have identity := Identities.arithmetic_isIdentity rule member
    have closed := Identities.standard_isClosed rule (List.mem_append_left _ member)
    exact value?_pass (fun _ _ => identity.contract closed) defined
  · exact value?_pass (fun _ _ same => same) defined

/-- Without folding, the arithmetic identities keep the value of an expression that has one: all
expressions of a run have it, and so has the one that is returned. -/
theorem arithmetic_keeps_rational {e : Expr} {v : Rat} (defined : e.value? values = some v)
    (depth limit : Nat) :
    (∀ state ∈ (arithmetic.run depth limit e).states, state.value? values = some v) ∧
      (arithmetic.run depth limit e).final.value? values = some v ∧
      ∀ result, (arithmetic.run depth limit e).result = .ok result →
        result.value? values = some v := by
  have path := run_path arithmetic depth limit e
  have step (e : Expr) (step : Step) (defined : e.value? values = some v)
      (advanced : arithmetic.advance? e = some step) : step.after.value? values = some v :=
    arithmetic_advance?_value? defined advanced
  have final := path.keeps step defined
  refine ⟨?_, final, ?_⟩
  · rw [Run.states, run_initial]
    exact path.keeps_states step defined
  · intro result returned
    obtain ⟨_, rfl⟩ := Run.result_eq_ok returned
    exact final

theorem arithmetic_keeps_rational_quotient :
    (Identities.x * (Identities.y / Identities.x) + Identities.x.power 0).value?
        (fun name => if name = "x" then 1 / 2 else 3) = some 4 ∧
      (arithmetic.run standardDepth 5 (Identities.x * (Identities.y / Identities.x) +
        Identities.x.power 0)).result = .ok (Identities.y + 1) ∧
      (Identities.y + 1).value? (fun name => if name = "x" then 1 / 2 else 3) = some 4 := by
  have defined : (Identities.x * (Identities.y / Identities.x) + Identities.x.power 0).value?
      (fun name => if name = "x" then 1 / 2 else 3) = some 4 := by
    simp [BinaryOp.onRationals?, Number.exact, ExactValue.rational?]
    norm_num
  have returned : (arithmetic.run standardDepth 5 (Identities.x * (Identities.y / Identities.x) +
      Identities.x.power 0)).result = .ok (Identities.y + 1) := rfl
  obtain ⟨_, _, kept⟩ := arithmetic_keeps_rational defined standardDepth 5
  exact ⟨defined, returned, kept _ returned⟩

end Simplifier

end SymbolicSimplifier
