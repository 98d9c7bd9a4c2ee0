import SymbolicSimplifier.Proofs.Integer.Operators
import SymbolicSimplifier.Proofs.Simplifier.Evaluation
import SymbolicSimplifier.Proofs.Simplifier.Precedence

set_option autoImplicit false

namespace SymbolicSimplifier

open SymbolicSimplifier.Expr

theorem Prelude.operators_pow_isSome (a b : Number) :
    ∃ n, operators.result? (.binary .pow) [a, b] = some n := by
  change ∃ n, resultOf (some <$> a.pow b) = some n
  cases a.pow b with
  | error fault => exact ⟨.nan, rfl⟩
  | ok outcome => exact ⟨outcome.toNumber, rfl⟩

namespace Expr

def zeroTo (e : Expr) : Expr :=
  Prelude.operators.settle (.binary .pow) [0, e]

theorem literalValue?_power_symbolic {e : Expr} (symbolic : e.literal? = none) :
    Prelude.operators.literalValue? (.binary .pow) [0, e] = none := by
  simp [Prelude.literalValue?, List.mapM_cons, symbolic]

theorem zeroTo_symbolic {e : Expr} (symbolic : e.literal? = none) : zeroTo e = .power 0 e := by
  rw [zeroTo, Prelude.settle, literalValue?_power_symbolic symbolic]
  rfl

theorem exists_zeroTo_literal (n : Number) :
    ∃ m, Prelude.operators.literalValue? (.binary .pow) [0, .literal n] = some m ∧
      zeroTo (.literal n) = .literal m := by
  obtain ⟨m, value⟩ := Prelude.operators_pow_isSome (.int 0) n
  have folded : Prelude.operators.literalValue? (.binary .pow) [0, .literal n] = some m :=
    (Prelude.literalValue?_binary_iff ..).mpr ⟨.int 0, n, rfl, rfl, value⟩
  exact ⟨m, folded, by rw [zeroTo, Prelude.settle, folded]⟩

theorem zeroTo_same {t : Expr} (symbolic : t.literal? = none) (e : Expr) :
    (zeroTo e).same (.power 0 t) = e.same t := by
  rcases e.literal_or_symbolic with ⟨n, rfl⟩ | found
  · obtain ⟨m, _, folded⟩ := exists_zeroTo_literal n
    rw [folded, literal_same_of_symbolic n symbolic]
    rfl
  · rw [zeroTo_symbolic found, Bool.eq_iff_iff]
    simp [power, binary]

end Expr

namespace Identities

def zeroPow : Rule :=
  rule "zero-pow" (.power 0 x) 0

theorem length_before_zeroPow : (before "zero-pow").length = standard.names.idxOf "zero-pow" :=
  rfl

theorem before_zeroPow_pattern : ∀ rule ∈ before "zero-pow",
    (∃ head patterns, rule.pattern = .node head patterns ∧ head ≠ .binary .pow) ∨
      ∃ base, rule.pattern = .power base 0 := by
  change ∀ rule ∈ arithmetic.rules.take 19, _
  simp [arithmetic, power, binary]

theorem before_zeroPow_contract {rule : Rule} (member : rule ∈ before "zero-pow") {e : Expr}
    (symbolic : e.literal? = none) : rule.contract (.power 0 e) = .power 0 e := by
  rcases before_zeroPow_pattern rule member with ⟨head, patterns, pattern, other⟩ | ⟨base, pattern⟩
  · exact Rule.contract_of_head_ne pattern other _
  · simp only [Rule.contract, Rule.contract?, match?, pattern, power, binary, matchFrom]
    simp only [matchAllFrom, if_true]
    split <;> simp [matchFrom, literal_same_of_symbolic _ symbolic]

theorem zeroPow_contract (e : Expr) : zeroPow.contract (.power 0 e) = 0 := by
  simp [zeroPow, Rule.contract, Rule.contract?, match?, power, binary, matchFrom, matchAllFrom,
    Bindings.bind?, OrderedMap.find?_empty]

end Identities

namespace Simplifier

theorem standard_table_zeroPow : standard.rules.rules =
    Identities.before "zero-pow" ++ Identities.zeroPow :: Identities.following "zero-pow" :=
  rfl

theorem rewrite_power_zero {rule : Rule} (nodes : rule.MatchesNodes) (t : Expr) :
    rule.rewrite .operators (.power 0 t) =
      if (rule.rewrite .operators t).literal?.isSome then zeroTo (rule.rewrite .operators t)
      else rule.contract (.power 0 (rule.rewrite .operators t)) := by
  have parts : rule.rewrite .operators (.power 0 t) =
      rule.rewriteNode .operators (.binary .pow) [0, rule.rewrite .operators t] := by
    rw [power, binary, Rule.rewrite_node, List.map_cons, List.map_singleton, ofNat_eq,
      nodes.rewrite_literal]
  rw [parts, Rule.rewriteNode]
  generalize rule.rewrite .operators t = e
  rcases e.literal_or_symbolic with ⟨n, rfl⟩ | symbolic
  · obtain ⟨m, value, folded⟩ := exists_zeroTo_literal n
    rw [value, folded]
    rfl
  · rw [literalValue?_power_symbolic symbolic, symbolic]
    rfl

theorem rewrite_power_zero_early {rule : Rule} (member : rule ∈ Identities.before "zero-pow")
    (t : Expr) : rule.rewrite .operators (.power 0 t) = zeroTo (rule.rewrite .operators t) := by
  have standard : rule ∈ Identities.standard.rules := List.mem_of_mem_take member
  rw [rewrite_power_zero (Identities.standard_matchesNodes rule standard)]
  split
  case isTrue => rfl
  case isFalse found =>
    have symbolic : (rule.rewrite .operators t).literal? = none := by simpa using found
    rw [Identities.before_zeroPow_contract member symbolic, zeroTo_symbolic symbolic]

theorem zeroPow_rewrite_power_zero (t : Expr) :
    Identities.zeroPow.rewrite .operators (.power 0 t) =
      if (Identities.zeroPow.rewrite .operators t).literal?.isSome then
        zeroTo (Identities.zeroPow.rewrite .operators t)
      else 0 := by
  have nodes : Identities.zeroPow.MatchesNodes := ⟨_, _, rfl⟩
  rw [rewrite_power_zero nodes, Identities.zeroPow_contract]

theorem firstChange?_power_zero {rules : List Rule}
    (early : ∀ rule ∈ rules, rule ∈ Identities.before "zero-pow") {t : Expr}
    (symbolic : t.literal? = none) (index : Int) :
    firstChange? .operators (.power 0 t) index rules =
      (firstChange? .operators t index rules).map fun step =>
        ⟨step.index, step.rule, .power 0 t, zeroTo step.after⟩ := by
  induction rules generalizing index with
  | nil => rfl
  | cons rule rules ih =>
    obtain ⟨first, rest⟩ := List.forall_mem_cons.mp early
    simp only [firstChange?, beq_eq_same, rewrite_power_zero_early first, zeroTo_same symbolic,
      ih rest]
    split <;> rfl

theorem zeroPow_changes_power_zero (t : Expr) :
    (Identities.zeroPow.rewrite .operators (.power 0 t)).same (.power 0 t) = false := by
  rw [zeroPow_rewrite_power_zero]
  split
  case isTrue found =>
    rcases (Identities.zeroPow.rewrite .operators t).literal_or_symbolic with
      ⟨n, literal⟩ | symbolic
    · obtain ⟨m, _, folded⟩ := exists_zeroTo_literal n
      rw [literal, folded]
      rfl
    · simp [symbolic] at found
  case isFalse => rfl

/-- Where the exponent takes a step with a rule before the one for powers of zero, so does the
power. Where it would take one with a later rule, the power becomes zero. -/
theorem advance?_power_zero {t : Expr} (symbolic : t.literal? = none) {step : Step}
    (advanced : standard.advance? t = some step) :
    ∃ lifted, standard.advance? (.power 0 t) = some lifted ∧
      (step.index < Identities.standard.names.idxOf "zero-pow" ∧
          lifted.after = zeroTo step.after ∨
        step.index = Identities.standard.names.idxOf "zero-pow" ∧
          lifted.after = (if step.after.literal?.isSome then zeroTo step.after else 0) ∨
        Identities.standard.names.idxOf "zero-pow" < step.index ∧ lifted.after = 0) := by
  have lifted := firstChange?_power_zero (fun _ member => member) symbolic 0
  rcases advance?_around standard_table_zeroPow advanced with found | ⟨unchanged, outcome⟩
  · have found : firstChange? .operators t 0 (Identities.before "zero-pow") = some step := found
    have index := (firstChange?_index found).2
    rw [Identities.length_before_zeroPow] at index
    rw [found] at lifted
    exact ⟨_, advance?_of_earlier standard_table_zeroPow lifted, .inl ⟨by omega, rfl⟩⟩
  · have found : firstChange? .operators t 0 (Identities.before "zero-pow") = none :=
      (firstChange?_eq_none_iff ..).mpr unchanged
    rw [found] at lifted
    refine ⟨_, advance?_of_first standard_table_zeroPow
      ((firstChange?_eq_none_iff ..).mp lifted) (zeroPow_changes_power_zero t), .inr ?_⟩
    rcases outcome with rfl | ⟨same, index⟩
    · exact .inl ⟨rfl, zeroPow_rewrite_power_zero t⟩
    · have nonnegative := (advance?_of_rule addZero_standard
        (Identities.standard_lightens addZero addZero_standard) advanced).1
      have still : (Identities.zeroPow.rewrite .operators t).literal? = none :=
        symbolic_of_same same symbolic
      have zero : Identities.zeroPow.rewrite .operators (.power 0 t) = 0 := by
        rw [zeroPow_rewrite_power_zero, still]
        rfl
      rw [Identities.length_before_zeroPow] at index
      exact .inr ⟨by omega, zero⟩

-- The step is taken by a rule before the position, or by the one at it and gives zero.
def InTime (position : Nat) (step : Step) : Prop :=
  step.index < position ∨ step.index = position ∧ step.after = 0

theorem advance?_power_zero_inTime {t : Expr} (symbolic : t.literal? = none) {step : Step}
    (advanced : standard.advance? t = some step)
    (vanishes : ∀ n, step.after = .literal n → n = .int 0) :
    ∃ lifted, standard.advance? (.power 0 t) = some lifted ∧
      (InTime (Identities.standard.names.idxOf "zero-pow") step ∧
          lifted.after = zeroTo step.after ∨
        ¬ InTime (Identities.standard.names.idxOf "zero-pow") step ∧ lifted.after = 0) := by
  obtain ⟨lifted, taken, outcome⟩ := advance?_power_zero symbolic advanced
  refine ⟨lifted, taken, ?_⟩
  rcases outcome with ⟨early, after⟩ | ⟨here, after⟩ | ⟨late, after⟩
  · exact .inl ⟨.inl early, after⟩
  · rcases step.after.literal_or_symbolic with ⟨n, literal⟩ | symbolic
    · obtain rfl := vanishes n literal
      rw [literal] at after
      exact .inl ⟨.inr ⟨here, literal⟩, by rw [after, literal]; rfl⟩
    · rw [symbolic] at after
      refine .inr ⟨?_, after⟩
      rintro (early | ⟨_, zero⟩)
      · omega
      · rw [zero] at symbolic
        cases symbolic
  · refine .inr ⟨?_, after⟩
    rintro (early | ⟨here, _⟩) <;> omega

theorem Path.zeroTo_result {t last : Expr} {steps : List Step} (path : standard.Path t steps last)
    (vanishes : last = 0) {depth limit : Nat} {result : Expr}
    (returned : (standard.run depth limit (zeroTo t)).result = .ok result) :
    ((∀ step ∈ steps, InTime (Identities.standard.names.idxOf "zero-pow") step) → result = 1) ∧
      ((∃ step ∈ steps, ¬ InTime (Identities.standard.names.idxOf "zero-pow") step) →
        result = 0) := by
  have nodes := Identities.standard_matchesNodes
  induction path generalizing limit with
  | nil e =>
    subst vanishes
    exact ⟨fun _ => result_literal nodes returned, by simp⟩
  | @cons t last step steps advanced rest ih =>
    have symbolic := symbolic_of_advanced nodes advanced
    rw [zeroTo_symbolic symbolic] at returned
    have zeroAfter : ∀ n, step.after = .literal n → n = .int 0 := by
      intro n after
      rw [after] at rest
      exact literal.inj ((rest.of_literal nodes).symm.trans vanishes)
    obtain ⟨lifted, taken, outcome⟩ := advance?_power_zero_inTime symbolic advanced zeroAfter
    obtain ⟨limit, returned⟩ := result_of_advance? taken returned
    rw [List.forall_mem_cons, List.exists_mem_cons_iff]
    rcases outcome with ⟨inTime, after⟩ | ⟨late, after⟩
    · rw [after] at returned
      obtain ⟨one, zero⟩ := ih vanishes returned
      exact ⟨fun ⟨_, others⟩ => one others, fun late => zero (late.resolve_left (· inTime))⟩
    · rw [after] at returned
      exact ⟨fun ⟨inTime, _⟩ => absurd inTime late, fun _ => result_literal nodes returned⟩

theorem exists_zeroTo_result {depth limit : Nat} {t result : Expr}
    (returned : (standard.run depth limit (.power 0 t)).result = .ok result) :
    ∃ rest, (standard.run depth rest (zeroTo t)).result = .ok result := by
  rcases t.literal_or_symbolic with ⟨n, rfl⟩ | symbolic
  · obtain ⟨m, _, folded⟩ := exists_zeroTo_literal n
    have value : (Expr.power 0 (.literal n)).fold standard.handlers = .literal m := folded
    obtain ⟨step, advanced, after⟩ := advance?_of_folded Identities.standard_matchesNodes value
    obtain ⟨rest, returned⟩ := result_of_advance? advanced returned
    exact ⟨rest, by rwa [folded, ← after]⟩
  · exact ⟨limit, by rwa [zeroTo_symbolic symbolic]⟩

/-- If the exponent is simplified to zero, zero to this power is simplified to one or to zero. It is
one just when no step of the exponent needs a rule after the one for powers of zero, nor this rule
before its last step. -/
theorem zero_power_is_one_in_time (depth limit other : Nat) {t result : Expr}
    (vanishes : (standard.run depth limit t).result = .ok 0)
    (returned : (standard.run depth other (.power 0 t)).result = .ok result) :
    ((∀ step ∈ (standard.run depth limit t).steps,
        InTime (Identities.standard.names.idxOf "zero-pow") step) → result = 1) ∧
      ((∃ step ∈ (standard.run depth limit t).steps,
        ¬ InTime (Identities.standard.names.idxOf "zero-pow") step) → result = 0) := by
  have path := run_path standard depth limit t
  have last := (Run.result_eq_ok vanishes).2
  obtain ⟨rest, returned⟩ := exists_zeroTo_result returned
  exact path.zeroTo_result last returned

theorem zero_power_of_difference_is_one :
    (standard.run standardDepth 1 (Identities.x - Identities.x)).result = .ok 0 ∧
      (∀ step ∈ (standard.run standardDepth 1 (Identities.x - Identities.x)).steps,
        InTime 19 step) ∧
      ∃ result, (standard.run standardDepth 1 (.power 0 (Identities.x - Identities.x))).result =
        .ok result ∧ result = 1 := by
  have vanishes : (standard.run standardDepth 1 (Identities.x - Identities.x)).result =
      .ok 0 := rfl
  have steps : ∃ step,
      (standard.run standardDepth 1 (Identities.x - Identities.x)).steps = [step] ∧
        step.index = 5 := ⟨_, rfl, rfl⟩
  obtain ⟨step, steps, index⟩ := steps
  have inTime : ∀ step ∈ (standard.run standardDepth 1 (Identities.x - Identities.x)).steps,
      InTime 19 step := by
    rw [steps, List.forall_mem_singleton]
    exact .inl (by omega)
  have returned : ∃ result,
      (standard.run standardDepth 1 (.power 0 (Identities.x - Identities.x))).result =
        .ok result := ⟨_, rfl⟩
  obtain ⟨result, returned⟩ := returned
  exact ⟨vanishes, inTime, result, returned,
    (zero_power_is_one_in_time standardDepth 1 1 vanishes returned).1 inTime⟩

theorem zero_power_of_sum_is_zero :
    ¬ ∀ t result, standard.simplify standardDepth t = .ok 0 →
      standard.simplify standardDepth (.power 0 t) = .ok result → result = 1 := by
  intro claimed
  have zero : standard.simplify standardDepth (Identities.x + -Identities.x) = .ok 0 := rfl
  have power : standard.simplify standardDepth (.power 0 (Identities.x + -Identities.x)) =
      .ok 0 := rfl
  simpa using claimed _ _ zero power

end Simplifier

end SymbolicSimplifier
