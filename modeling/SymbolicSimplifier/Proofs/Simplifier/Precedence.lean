import SymbolicSimplifier.Proofs.Simplifier.Extension

set_option autoImplicit false

namespace SymbolicSimplifier

open SymbolicSimplifier.Expr

namespace Identities

def before (name : String) : List Rule :=
  standard.rules.take (standard.names.idxOf name)

def following (name : String) : List Rule :=
  standard.rules.drop (standard.names.idxOf name + 1)

end Identities

namespace Simplifier

theorem firstChange?_of_first {handlers : Prelude} {e : Expr} {earlier : List Rule} {rule : Rule}
    (unchanged : ∀ other ∈ earlier, (other.rewrite handlers e).same e = true)
    (changed : (rule.rewrite handlers e).same e = false) (later : List Rule) (index : Int) :
    firstChange? handlers e index (earlier ++ rule :: later) =
      some ⟨index + earlier.length, some rule, e, rule.rewrite handlers e⟩ := by
  induction earlier generalizing index with
  | nil => simp [firstChange?, changed]
  | cons other earlier ih =>
    obtain ⟨first, rest⟩ := List.forall_mem_cons.mp unchanged
    simp only [List.cons_append, firstChange?, beq_eq_same, first, if_true, ih rest,
      List.length_cons, Option.some.injEq, Step.mk.injEq, and_true]
    omega

theorem firstChange?_index {handlers : Prelude} {e : Expr} {index : Int} {rules : List Rule}
    {step : Step} (found : firstChange? handlers e index rules = some step) :
    index ≤ step.index ∧ step.index < index + rules.length := by
  obtain ⟨earlier, rule, later, rfl, rfl, _⟩ := firstChange?_eq_some found
  simp only [List.length_append, List.length_cons]
  omega

variable {simplifier : Simplifier} {earlier later : List Rule} {rule : Rule}
  (table : simplifier.rules.rules = earlier ++ rule :: later)
include table

theorem advance?_of_first {e : Expr}
    (unchanged : ∀ other ∈ earlier, (other.rewrite simplifier.handlers e).same e = true)
    (changed : (rule.rewrite simplifier.handlers e).same e = false) :
    simplifier.advance? e =
      some ⟨earlier.length, some rule, e, rule.rewrite simplifier.handlers e⟩ := by
  rw [advance?, table, firstChange?_of_first unchanged changed, Int.zero_add]

theorem advance?_of_earlier {e : Expr} {step : Step}
    (found : firstChange? simplifier.handlers e 0 earlier = some step) :
    simplifier.advance? e = some step := by
  rw [advance?, table, firstChange?_append found]

theorem advance?_of_changed {e : Expr}
    (changed : (rule.rewrite simplifier.handlers e).same e = false) :
    ∃ step, simplifier.advance? e = some step ∧ 0 ≤ step.index ∧ step.index ≤ earlier.length ∧
      ∃ taker, (taker ∈ earlier ∨ taker = rule) ∧
        step.after = taker.rewrite simplifier.handlers e := by
  cases found : firstChange? simplifier.handlers e 0 earlier with
  | none =>
    have unchanged := (firstChange?_eq_none_iff ..).mp found
    exact ⟨_, advance?_of_first table unchanged changed, by simp, by simp, rule, .inr rfl, rfl⟩
  | some step =>
    obtain ⟨nonnegative, bounded⟩ := firstChange?_index found
    obtain ⟨first, taker, between, split, rfl, _⟩ := firstChange?_eq_some found
    exact ⟨_, advance?_of_earlier table found, nonnegative, by omega, taker,
      .inl (by simp [split]), rfl⟩

theorem index_of_unchanged {e : Expr}
    (unchanged : ∀ other ∈ earlier ++ [rule],
      (other.rewrite simplifier.handlers e).same e = true)
    {step : Step} (advanced : simplifier.advance? e = some step) :
    step.index = -1 ∨ (earlier.length : Int) < step.index := by
  obtain ⟨first, taker, rest, split, rfl, changed, _⟩ | ⟨rfl, _⟩ := advance?_eq_some advanced
  · right
    change (earlier.length : Int) < first.length
    by_contra early
    have here : simplifier.rules.rules[first.length]? = some taker := by simp [split]
    have within : first.length < (earlier ++ [rule]).length := by
      simp only [List.length_append, List.length_singleton]
      omega
    rw [table, List.append_cons, List.getElem?_append_left within] at here
    simp [unchanged taker (List.mem_of_getElem? here)] at changed
  · exact .inl rfl

/-- A step is taken by a rule before a given one, or by this one, or else none of them changes the
expression and the step is left to a later rule or to a folding pass. -/
theorem advance?_around {e : Expr} {step : Step} (advanced : simplifier.advance? e = some step) :
    firstChange? simplifier.handlers e 0 earlier = some step ∨
      (∀ other ∈ earlier, (other.rewrite simplifier.handlers e).same e = true) ∧
        (step = ⟨earlier.length, some rule, e, rule.rewrite simplifier.handlers e⟩ ∨
          (rule.rewrite simplifier.handlers e).same e = true ∧
            (step.index = -1 ∨ (earlier.length : Int) < step.index)) := by
  cases found : firstChange? simplifier.handlers e 0 earlier with
  | some first => exact .inl ((advance?_of_earlier table found).symm.trans advanced)
  | none =>
    have unchanged := (firstChange?_eq_none_iff ..).mp found
    refine .inr ⟨unchanged, ?_⟩
    cases same : (rule.rewrite simplifier.handlers e).same e with
    | false =>
      have taken := advance?_of_first table unchanged same
      exact .inl (Option.some.inj (advanced.symm.trans taken))
    | true =>
      have through : ∀ other ∈ earlier ++ [rule],
          (other.rewrite simplifier.handlers e).same e = true := by
        simpa [or_imp, forall_and] using ⟨unchanged, same⟩
      exact .inr ⟨rfl, index_of_unchanged table through advanced⟩

end Simplifier

end SymbolicSimplifier
