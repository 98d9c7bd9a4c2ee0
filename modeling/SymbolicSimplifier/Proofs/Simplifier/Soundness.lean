import SymbolicSimplifier.Proofs.Identities.Soundness
import SymbolicSimplifier.Proofs.Simplifier.Path

/-!
On integers the standard simplifier keeps the value of an expression, however far it gets. The
invariant of a run is that the expression is integral and stands for the same integer. It allows
exponents that are sums, since the next pass turns them into numbers before it looks at the power.
-/

set_option autoImplicit false

namespace SymbolicSimplifier

namespace Expr

section Pass

variable {known : String → Prop} {values : String → Int} {contract : Expr → Expr}
  (fixes : ∀ n, contract (.literal n) = .literal n)
  (keeps : ∀ e n, Denotes known values e n → (∀ exponent, e ≠ .power 0 exponent) →
    Denotes known values (contract e) n)

include fixes in
theorem Exponent.pass {e : Expr} (exponent : Exponent e) :
    ∃ n : Nat, e.pass .operators contract = .literal (.int n) := by
  induction exponent with
  | literal n => exact ⟨n, fixes _⟩
  | add _ _ left right =>
    obtain ⟨m, left⟩ := left
    obtain ⟨n, right⟩ := right
    refine ⟨m + n, ?_⟩
    have folded : Prelude.operators.literalValue? (.binary .add)
        [.literal (.int m), .literal (.int n)] = some (.int (m + n)) := rfl
    simp [pass_node, left, right, passNode, folded]

include keeps in
theorem Denotes.passNode {head : Head} {args : List Expr} {n : Int}
    (denotes : Denotes known values (.node head args) n)
    (exponent : ∀ a b, Expr.node head args = .power a b → ∃ k : Nat, b = .literal (.int k)) :
    Denotes known values (passNode .operators contract head args) n := by
  unfold Expr.passNode
  split
  case h_1 k folded =>
    have value := (denotes.integral.defined values).eq_of_nodeValue? folded
    rw [value, denotes.meaning]
    exact ⟨.literal n, rfl⟩
  case h_2 unfolded =>
    apply keeps _ _ denotes
    intro b power
    obtain ⟨k, rfl⟩ := exponent _ _ power
    cases power
    cases unfolded

variable (contract) in
include fixes keeps in
theorem Integral.pass {e : Expr} (integral : Integral known e) :
    Denotes known values (e.pass .operators contract) (e.meaning values) := by
  induction integral with
  | literal n => exact keeps _ _ ⟨.literal n, rfl⟩ (by simp)
  | var here => exact keeps _ _ ⟨.var here, rfl⟩ (by simp)
  | unary op _ ih =>
    rw [pass_node]
    apply Denotes.passNode keeps
    · exact ⟨.unary op ih.integral, by simp [ih.meaning]⟩
    · simp
  | binary whole other _ _ left right =>
    rw [pass_node]
    apply Denotes.passNode keeps
    · exact ⟨.binary whole other left.integral right.integral,
        by simp [left.meaning, right.meaning]⟩
    · simp [other]
  | power _ _ exponent left right =>
    rw [pass_node]
    obtain ⟨k, literal⟩ := exponent.pass fixes
    apply Denotes.passNode keeps
    · refine ⟨.power left.integral right.integral ?_, by simp [left.meaning, right.meaning]⟩
      rw [literal]
      exact .literal k
    · simp [literal]

end Pass

end Expr

open SymbolicSimplifier.Expr

namespace Simplifier

variable {known : String → Prop} {values : String → Int}

theorem standard_advance?_denotes {e : Expr} {step : Step} {n : Int}
    (denotes : Denotes known values e n) (advanced : standard.advance? e = some step) :
    Denotes known values step.after n := by
  rw [← denotes.meaning]
  obtain ⟨earlier, rule, later, table, rfl, _, _⟩ | ⟨rfl, _, _⟩ := advance?_eq_some advanced
  · have member : rule ∈ Identities.standard.rules := by
      change Identities.standard.rules = _ at table
      simp [table]
    have lightens := Identities.standard_lightens rule member
    have keeps := Identities.standard_keeps known values rule member
    have free := Identities.standard_isFloatFree rule member
    refine denotes.integral.pass rule.contract ?_ fun e n => keeps.contract free
    intro n
    exact (lightens.contract _).eq_of_rank_le (by simp)
  · exact denotes.integral.pass id (fun _ => rfl) fun _ _ same _ => same

theorem standard_run_denotes {e : Expr} {n : Int} (denotes : Denotes known values e n)
    (depth limit : Nat) : Denotes known values (standard.run depth limit e).final n :=
  (run_path standard depth limit e).keeps (P := fun f => Denotes known values f n)
    (fun _ _ denotes advanced => standard_advance?_denotes denotes advanced) denotes

/-- On a tree of integers and variables the standard simplifier keeps the value for all integers
that may be put in, whether it reaches a fixed point or stops at the limit. -/
theorem standard_keeps_integer {e : Expr} (tree : IntegerTree e) (depth limit : Nat)
    (bindings : Bindings)
    (bound : ∀ name ∈ e.varNames, ∃ n : Int, bindings.find? name = some (.ofInt n)) :
    ∃ value : Int,
      (e.substitute bindings).evaluate? .operators = some (.int value) ∧
      (∀ result, (standard.run depth limit e).result = .ok result →
        (result.substitute bindings).evaluate? .operators = some (.int value)) ∧
      ∀ count last, (standard.run depth limit e).result = .error (.unsettled count last) →
        (last.substitute bindings).evaluate? .operators = some (.int value) := by
  let known (name : String) : Prop := ∃ n : Int, bindings.find? name = some (.ofInt n)
  let values (name : String) : Int := (bindings.lookup name).meaning fun _ => 0
  have held : ∀ name, known name →
      bindings.find? name = some (.literal (.int (values name))) := by
    rintro name ⟨n, found⟩
    simp only [values, Bindings.lookup_of_find? found]
    exact found
  have start : Denotes known values e (e.meaning values) := ⟨tree.integral bound, rfl⟩
  have final := (standard_run_denotes start depth limit).evaluate? held
  refine ⟨e.meaning values, start.evaluate? held, ?_, ?_⟩
  · intro result returned
    obtain ⟨_, rfl⟩ := Run.result_eq_ok returned
    exact final
  · intro count last stopped
    obtain ⟨_, _, rfl⟩ := Run.result_eq_unsettled stopped
    exact final

theorem standard_keeps_integer_power :
    IntegerTree (Identities.x.power 2 * Identities.x.power 3) ∧
      (∀ name ∈ (Identities.x.power 2 * Identities.x.power 3).varNames,
        ∃ n : Int, (.ofList [("x", .ofInt 7)] : Bindings).find? name = some (.ofInt n)) ∧
      (standard.run standardDepth 2 (Identities.x.power 2 * Identities.x.power 3)).result =
        .ok (Identities.x.power 5) ∧
      ∃ value : Int,
        ((Identities.x.power 2 * Identities.x.power 3).substitute
          (.ofList [("x", .ofInt 7)])).evaluate? .operators = some (.int value) ∧
        ((Identities.x.power 5).substitute (.ofList [("x", .ofInt 7)])).evaluate? .operators =
          some (.int value) := by
  have tree : IntegerTree (Identities.x.power 2 * Identities.x.power 3) :=
    .binary (by decide) (by decide) (.power 2 (.var "x")) (.power 3 (.var "x"))
  have bound : ∀ name ∈ (Identities.x.power 2 * Identities.x.power 3).varNames,
      ∃ n : Int, (.ofList [("x", .ofInt 7)] : Bindings).find? name = some (.ofInt n) := by
    intro name occurs
    obtain rfl : name = "x" := by simpa using occurs
    exact ⟨7, rfl⟩
  have settles : (standard.run standardDepth 2
      (Identities.x.power 2 * Identities.x.power 3)).result = .ok (Identities.x.power 5) := rfl
  obtain ⟨value, before, after, _⟩ := standard_keeps_integer tree standardDepth 2 _ bound
  exact ⟨tree, bound, settles, value, before, after _ settles⟩

end Simplifier

end SymbolicSimplifier
