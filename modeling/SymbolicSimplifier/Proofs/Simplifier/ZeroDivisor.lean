import SymbolicSimplifier.Proofs.Integer.Operators
import SymbolicSimplifier.Proofs.Simplifier.Evaluation
import SymbolicSimplifier.Proofs.Simplifier.Precedence

set_option autoImplicit false

namespace SymbolicSimplifier

open SymbolicSimplifier.Expr

namespace Number

theorem isZero_int (n : Int) : (int n).isZero = true ↔ n = 0 := by
  simp [isZero, exact]

theorem exists_toFloat_of_isZero {z : Number} (zero : z.isZero = true) :
    ∃ y, z.toFloat = .ok y ∧ (float y).isZero = true := by
  cases z with
  | int n =>
    obtain rfl := (isZero_int n).mp zero
    exact ⟨_, rfl, by decide⟩
  | float y => exact ⟨y, rfl, zero⟩

-- The fault may also be that the dividend is too large to be converted.
theorem div_isZero (a : Number) {z : Number} (zero : z.isZero = true) :
    ∃ fault, a.div z = .error fault := by
  have converted : ∃ fault, (do
      let x ← a.toFloat
      let y ← z.toFloat
      if (float y).isZero then .error .zeroDivision else .ok (float (x / y)) :
        Except Fault Number) = .error fault := by
    obtain ⟨y, toFloat, zeroFloat⟩ := exists_toFloat_of_isZero zero
    rw [toFloat]
    cases a.toFloat with
    | error fault => exact ⟨fault, rfl⟩
    | ok x => exact ⟨.zeroDivision, if_pos zeroFloat⟩
  cases a with
  | int a =>
    cases z with
    | int n =>
      obtain rfl := (isZero_int n).mp zero
      exact ⟨.zeroDivision, rfl⟩
    | float => exact converted
  | float => exact converted

end Number

theorem Prelude.operators_div_isZero (a : Number) {z : Number} (zero : z.isZero = true) :
    operators.result? (.binary .div) [a, z] = some .nan := by
  obtain ⟨fault, failed⟩ := a.div_isZero zero
  change resultOf ((some ∘ Outcome.number) <$> a.div z) = _
  rw [failed]
  rfl

namespace Identities

def divZero : Rule :=
  described "div-zero" "division by zero is NaN" (x / 0) .nan

theorem length_before_divZero : (before "div-zero").length = standard.names.idxOf "div-zero" :=
  rfl

theorem before_divZero_head_ne : ∀ rule ∈ before "div-zero",
    ∃ head patterns, rule.pattern = .node head patterns ∧ head ≠ .binary .div := by
  change ∀ rule ∈ arithmetic.rules.take 13, _
  simp [arithmetic]

theorem divZero_contract (a : Expr) {z : Number} (zero : z.isZero = true) :
    divZero.contract (a / .literal z) = .nan := by
  have equal : Number.exact (.int 0) = z.exact := by
    simpa [Number.isZero, Number.exact, eq_comm] using zero
  simp [divZero, Rule.contract, Rule.contract?, match?, matchFrom, matchAllFrom, equal,
    Bindings.bind?, OrderedMap.find?_empty]

end Identities

namespace Simplifier

theorem standard_table_divZero : standard.rules.rules =
    Identities.before "div-zero" ++ Identities.divZero :: Identities.following "div-zero" :=
  rfl

def IsQuotientBy (z : Number) (e : Expr) : Prop :=
  e = .nan ∨ ∃ a, e = a / .literal z

variable {z : Number} (zero : z.isZero = true)
include zero

theorem rewrite_quotient {rule : Rule} (nodes : rule.MatchesNodes) (a : Expr) :
    rule.rewrite .operators (a / .literal z) = .nan ∨
      rule.rewrite .operators (a / .literal z) =
        rule.contract (rule.rewrite .operators a / .literal z) := by
  have parts : rule.rewrite .operators (a / .literal z) =
      rule.rewriteNode .operators (.binary .div) [rule.rewrite .operators a, .literal z] := by
    rw [div_eq, Rule.rewrite_node, List.map_cons, List.map_singleton, nodes.rewrite_literal]
  rw [parts, Rule.rewriteNode]
  split
  case h_1 n folded =>
    obtain ⟨j, k, _, divisor, result⟩ := (Prelude.literalValue?_binary_iff ..).mp folded
    obtain rfl := Option.some.inj divisor
    rw [Prelude.operators_div_isZero j zero] at result
    exact .inl (congrArg literal (Option.some.inj result).symm)
  case h_2 => exact .inr rfl

theorem rewrite_divZero (a : Expr) :
    Identities.divZero.rewrite .operators (a / .literal z) = .nan := by
  have nodes : Identities.divZero.MatchesNodes := ⟨_, _, rfl⟩
  rcases rewrite_quotient zero nodes a with folded | contracted
  · exact folded
  · rw [contracted, Identities.divZero_contract _ zero]

theorem rewrite_isQuotientBy {rule : Rule} (member : rule ∈ Identities.before "div-zero")
    (a : Expr) :
    IsQuotientBy z (rule.rewrite .operators (a / .literal z)) := by
  obtain ⟨head, patterns, pattern, other⟩ := Identities.before_divZero_head_ne rule member
  rcases rewrite_quotient zero ⟨_, _, pattern⟩ a with folded | contracted
  · exact .inl folded
  · rw [contracted, div_eq, Rule.contract_of_head_ne pattern other]
    exact .inr ⟨_, rfl⟩

theorem advance?_quotient (a : Expr) :
    ∃ step, standard.advance? (a / .literal z) = some step ∧ 0 ≤ step.index ∧
      step.index ≤ Identities.standard.names.idxOf "div-zero" ∧ IsQuotientBy z step.after := by
  have changed : (Identities.divZero.rewrite .operators (a / .literal z)).same
      (a / .literal z) = false := by
    rw [rewrite_divZero zero]
    rfl
  obtain ⟨step, advanced, nonnegative, bounded, taker, place, after⟩ :=
    advance?_of_changed standard_table_divZero changed
  rw [Identities.length_before_divZero] at bounded
  refine ⟨step, advanced, nonnegative, bounded, ?_⟩
  rw [after]
  rcases place with member | rfl
  · exact rewrite_isQuotientBy zero member a
  · exact .inl (rewrite_divZero zero a)

theorem advance?_isQuotientBy {e : Expr} (start : IsQuotientBy z e) {step : Step}
    (advanced : standard.advance? e = some step) :
    0 ≤ step.index ∧ step.index ≤ Identities.standard.names.idxOf "div-zero" ∧
      IsQuotientBy z step.after := by
  rcases start with rfl | ⟨a, rfl⟩
  · rw [Expr.nan, advance?_literal Identities.standard_matchesNodes] at advanced
    cases advanced
  · obtain ⟨step', advanced', kept⟩ := advance?_quotient zero a
    cases advanced.symm.trans advanced'
    exact kept

theorem Path.isQuotientBy {e last : Expr} {steps : List Step} (path : standard.Path e steps last)
    (start : IsQuotientBy z e) :
    IsQuotientBy z last ∧ ∀ step ∈ steps,
      0 ≤ step.index ∧ step.index ≤ Identities.standard.names.idxOf "div-zero" := by
  induction path with
  | nil => simpa using start
  | cons advanced _ ih =>
    obtain ⟨nonnegative, bounded, kept⟩ := advance?_isQuotientBy zero start advanced
    obtain ⟨last, rest⟩ := ih kept
    exact ⟨last, List.forall_mem_cons.mpr ⟨⟨nonnegative, bounded⟩, rest⟩⟩

/-- A quotient by a literal zero can only be simplified to NaN, whatever the dividend is, and no
rule after the one for such quotients takes a step on the way. -/
theorem zero_divisor_run_gives_nan (depth limit : Nat) (a : Expr) :
    (∀ result, (standard.run depth limit (a / .literal z)).result = .ok result → result = .nan) ∧
      ∀ step ∈ (standard.run depth limit (a / .literal z)).steps,
        0 ≤ step.index ∧ step.index ≤ Identities.standard.names.idxOf "div-zero" := by
  have path := run_path standard depth limit (a / .literal z)
  obtain ⟨last, early⟩ := path.isQuotientBy zero (.inr ⟨a, rfl⟩)
  refine ⟨fun result returned => ?_, early⟩
  obtain ⟨settled, rfl⟩ := Run.result_eq_ok returned
  have stuck := advance?_of_settled settled
  rcases last with nan | ⟨b, quotient⟩
  · exact nan
  · obtain ⟨_, advanced, _⟩ := advance?_quotient zero b
    rw [quotient, advanced] at stuck
    cases stuck

omit zero

def zeroOverNegativeZero : Expr :=
  (Identities.x - Identities.x) * Identities.y / .literal (.float (-0.0))

theorem zeroOverNegativeZero_run_gives_nan :
    (Number.float (-0.0)).isZero = true ∧
      (standard.run standardDepth 2 zeroOverNegativeZero).result = .ok .nan ∧
      (standard.run standardDepth 2 zeroOverNegativeZero).length = 2 ∧
      ∀ step ∈ (standard.run standardDepth 2 zeroOverNegativeZero).steps,
        0 ≤ step.index ∧ step.index ≤ 13 := by
  have zero : (Number.float (-0.0)).isZero = true := by decide
  obtain ⟨nan, early⟩ := zero_divisor_run_gives_nan zero standardDepth 2
    ((Identities.x - Identities.x) * Identities.y)
  have returned : ∃ result,
      (standard.run standardDepth 2 zeroOverNegativeZero).result = .ok result := ⟨_, rfl⟩
  obtain ⟨result, returned⟩ := returned
  exact ⟨zero, nan result returned ▸ returned, rfl, early⟩

end Simplifier

end SymbolicSimplifier
