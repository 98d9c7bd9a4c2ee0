import SymbolicSimplifier.Proofs.Simplifier.Path

set_option autoImplicit false

namespace SymbolicSimplifier

namespace Run

def prepend (run : Run) (e : Expr) (steps : List Step) : Run :=
  ⟨e, steps ++ run.steps, run.final, run.ending⟩

def EndsLike (first second : Run) : Prop :=
  match first.result, second.result with
  | .ok a, .ok b => a = b
  | .error (.unsettled _ a), .error (.unsettled _ b) => a = b
  | .error (.tooDeep _), .error (.tooDeep _) => True
  | _, _ => False

theorem prepend_endsLike (run : Run) (e : Expr) (steps : List Step) :
    (run.prepend e steps).EndsLike run := by
  unfold EndsLike result prepend
  cases run.ending <;> simp

theorem result_prepend_eq_ok {run : Run} {e last : Expr} {steps : List Step} :
    (run.prepend e steps).result = .ok last ↔ run.result = .ok last := by
  unfold result prepend
  cases run.ending <;> simp

structure StopsAt (run : Run) (limit : Nat) (last : Expr) : Prop where
  result : run.result = .error (.unsettled limit last)
  report : ∀ error, run.result = .error error → error.report =
    ⟨.limit, some ("No fixed point reached after " ++ toString limit ++ " rewrite steps")⟩

theorem StopsAt.of_result {run : Run} {limit : Nat} {last : Expr}
    (stopped : run.result = .error (.unsettled limit last)) : run.StopsAt limit last := by
  refine ⟨stopped, ?_⟩
  intro error failed
  rw [stopped] at failed
  cases failed
  rfl

end Run

namespace Simplifier

def Shallow (depth : Nat) (steps : List Step) : Prop :=
  ∀ step ∈ steps, step.before.deeperThan depth = false

variable {simplifier : Simplifier} {depth : Nat}

theorem run_deep {e : Expr} (deep : e.deeperThan depth = true) (limit : Nat) :
    simplifier.run depth limit e = ⟨e, [], e, .tooDeep⟩ := by
  fun_cases Simplifier.run simplifier depth limit e with
  | case1 => rfl
  | case2 shallow => contradiction
  | case3 shallow => contradiction
  | case4 shallow => contradiction

section Equations

variable {e : Expr} (shallow : e.deeperThan depth = false)
include shallow

theorem run_settled (settled : simplifier.advance? e = none) (limit : Nat) :
    simplifier.run depth limit e = ⟨e, [], e, .settled⟩ := by
  cases limit <;> simp [run, shallow, settled]

theorem run_zero {step : Step} (advanced : simplifier.advance? e = some step) :
    simplifier.run depth 0 e = ⟨e, [], e, .limited step⟩ := by
  simp [run, shallow, advanced]

theorem run_succ {step : Step} (advanced : simplifier.advance? e = some step) (limit : Nat) :
    simplifier.run depth (limit + 1) e =
      (simplifier.run depth limit step.after).prepend e [step] := by
  simp [run, shallow, advanced, Run.prepend]

end Equations

theorem result_of_advance? {limit : Nat} {e result : Expr} {step : Step}
    (advanced : simplifier.advance? e = some step)
    (returned : (simplifier.run depth limit e).result = .ok result) :
    ∃ rest, (simplifier.run depth rest step.after).result = .ok result := by
  cases nested : e.deeperThan depth with
  | true =>
    rw [run_deep nested] at returned
    cases returned
  | false =>
    cases limit with
    | zero =>
      rw [run_zero nested advanced] at returned
      cases returned
    | succ limit =>
      rw [run_succ nested advanced, Run.result_prepend_eq_ok] at returned
      exact ⟨limit, returned⟩

theorem run_prepend_nil (simplifier : Simplifier) (depth limit : Nat) (e : Expr) :
    (simplifier.run depth limit e).prepend e [] = simplifier.run depth limit e := by
  fun_cases Simplifier.run simplifier depth limit e <;> rfl

theorem run_shallow (simplifier : Simplifier) (depth limit : Nat) (e : Expr) :
    Shallow depth (simplifier.run depth limit e).steps := by
  fun_induction Simplifier.run simplifier depth limit e with
  | case1 => simp [Shallow]
  | case2 => simp [Shallow]
  | case3 => simp [Shallow]
  | case4 e shallow step limit advanced rest ih =>
    have here : step.before.deeperThan depth = false := by
      rw [advance?_before advanced]
      simpa using shallow
    exact List.forall_mem_cons.mpr ⟨here, ih⟩

theorem final_shallow {limit : Nat} {e : Expr}
    (settled : (simplifier.run depth limit e).ending = .settled) :
    (simplifier.run depth limit e).final.deeperThan depth = false := by
  fun_induction Simplifier.run simplifier depth limit e with
  | case1 => cases settled
  | case2 _ _ shallow => simpa using shallow
  | case3 => cases settled
  | case4 e shallow step limit advanced rest ih => exact ih settled

theorem Path.run_add {e last : Expr} {steps : List Step} (path : simplifier.Path e steps last)
    (shallow : Shallow depth steps) (limit : Nat) :
    simplifier.run depth (steps.length + limit) e =
      (simplifier.run depth limit last).prepend e steps := by
  induction path with
  | nil e => rw [run_prepend_nil, List.length_nil, Nat.zero_add]
  | @cons e last step steps advanced _ ih =>
    obtain ⟨here, rest⟩ := List.forall_mem_cons.mp shallow
    rw [advance?_before advanced] at here
    rw [List.length_cons, Nat.add_right_comm, run_succ here advanced, ih rest]
    rfl

theorem run_length_add (simplifier : Simplifier) (depth limit more : Nat) (e : Expr) :
    simplifier.run depth ((simplifier.run depth limit e).length + more) e =
      (simplifier.run depth more (simplifier.run depth limit e).final).prepend e
        (simplifier.run depth limit e).steps :=
  (run_path simplifier depth limit e).run_add (run_shallow simplifier depth limit e) more

theorem run_eq_of_settled {limit other : Nat} {e : Expr}
    (settled : (simplifier.run depth limit e).ending = .settled)
    (enough : (simplifier.run depth limit e).length ≤ other) :
    simplifier.run depth other e = simplifier.run depth limit e := by
  obtain ⟨more, rfl⟩ := Nat.exists_eq_add_of_le enough
  rw [run_length_add, run_settled (final_shallow settled) (advance?_of_settled settled), ← settled]
  simpa [Run.prepend] using run_prepend_nil simplifier depth limit e

theorem run_of_cut {limit other : Nat} {e : Expr}
    (cut : other < (simplifier.run depth limit e).length) :
    ∃ last next, (simplifier.run depth limit e).states[other]? = some last ∧
      simplifier.run depth other e =
        ⟨e, (simplifier.run depth limit e).steps.take other, last, .limited next⟩ := by
  have path := run_path simplifier depth limit e
  have shallow := run_shallow simplifier depth limit e
  rw [Run.states, run_initial]
  unfold Run.length at cut
  generalize (simplifier.run depth limit e).steps = steps at *
  obtain ⟨earlier, next, later, rfl, rfl⟩ :
      ∃ earlier next later, steps = earlier ++ next :: later ∧ earlier.length = other :=
    ⟨steps.take other, steps[other], steps.drop (other + 1), by simp, by simp; omega⟩
  -- The step after the cut is there to be taken, which is why the shorter run has not settled.
  obtain ⟨last, before, rest⟩ := path.split
  cases rest with
  | cons advanced _ =>
    have here := shallow next (by simp)
    rw [advance?_before advanced] at here
    have run := before.run_add (fun step member => shallow step (by simp [member])) 0
    rw [run_zero here advanced] at run
    exact ⟨last, next, before.getElem?_length _, by simpa [Run.prepend] using run⟩

/-- A run that returns is the same with every limit that allows its steps. With a smaller limit it
stops at the expression that it has reached by then, and goes on from there if it is allowed
more steps. -/
theorem limit_only_cuts_run (simplifier : Simplifier) (depth limit : Nat) (e : Expr) :
    (∀ result, (simplifier.run depth limit e).result = .ok result →
      (∀ other, (simplifier.run depth limit e).length ≤ other →
        simplifier.run depth other e = simplifier.run depth limit e) ∧
      ∀ other, other < (simplifier.run depth limit e).length →
        ∃ last, (simplifier.run depth limit e).states[other]? = some last ∧
          (simplifier.run depth other e).StopsAt other last) ∧
    ∀ count last, (simplifier.run depth limit e).result = .error (.unsettled count last) →
      count = limit ∧ ∀ more,
        (simplifier.run depth (limit + more) e).EndsLike (simplifier.run depth more last) := by
  refine ⟨?returns, ?stops⟩
  case returns =>
    intro result returned
    obtain ⟨settled, _⟩ := Run.result_eq_ok returned
    refine ⟨fun other enough => run_eq_of_settled settled enough, ?_⟩
    intro other cut
    obtain ⟨last, next, reached, stopped⟩ := run_of_cut cut
    have taken : ((simplifier.run depth limit e).steps.take other).length = other :=
      List.length_take_of_le (Nat.le_of_lt cut)
    refine ⟨last, reached, .of_result ?_⟩
    simp [stopped, Run.result, Run.length, taken]
  case stops =>
    intro count last stopped
    obtain ⟨⟨next, limited⟩, rfl, rfl⟩ := Run.result_eq_unsettled stopped
    have spent := (advance?_of_limited limited).1
    refine ⟨spent, ?_⟩
    intro more
    rw [← spent, run_length_add, spent]
    exact Run.prepend_endsLike _ _ _

theorem limit_only_cuts_power_product :
    (standard.run standardDepth 2 (Identities.x.power 2 * Identities.x.power 3)).result =
        .ok (Identities.x.power 5) ∧
      standard.run standardDepth 7 (Identities.x.power 2 * Identities.x.power 3) =
        standard.run standardDepth 2 (Identities.x.power 2 * Identities.x.power 3) ∧
      (∃ last,
        (standard.run standardDepth 2
          (Identities.x.power 2 * Identities.x.power 3)).states[1]? = some last ∧
        (standard.run standardDepth 1
          (Identities.x.power 2 * Identities.x.power 3)).StopsAt 1 last) ∧
      (standard.run standardDepth 1 (Identities.x.power 2 * Identities.x.power 3)).result =
        .error (.unsettled 1 (Identities.x.power (2 + 3))) ∧
      (standard.run standardDepth (1 + 6) (Identities.x.power 2 * Identities.x.power 3)).EndsLike
        (standard.run standardDepth 6 (Identities.x.power (2 + 3))) := by
  have returned : (standard.run standardDepth 2
      (Identities.x.power 2 * Identities.x.power 3)).result = .ok (Identities.x.power 5) := rfl
  have length : (standard.run standardDepth 2
      (Identities.x.power 2 * Identities.x.power 3)).length = 2 := rfl
  have stopped : (standard.run standardDepth 1
      (Identities.x.power 2 * Identities.x.power 3)).result =
      .error (.unsettled 1 (Identities.x.power (2 + 3))) := rfl
  obtain ⟨longer, shorter⟩ := (limit_only_cuts_run standard standardDepth 2 _).1 _ returned
  obtain ⟨_, resumed⟩ := (limit_only_cuts_run standard standardDepth 1 _).2 _ _ stopped
  exact ⟨returned, longer 7 (by omega), shorter 1 (by omega), stopped, resumed 6⟩

end Simplifier

end SymbolicSimplifier
