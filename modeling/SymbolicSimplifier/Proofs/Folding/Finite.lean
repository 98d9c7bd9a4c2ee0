import SymbolicSimplifier.Proofs.Expr.Congruence
import SymbolicSimplifier.Proofs.Folding.Basic
import SymbolicSimplifier.Proofs.Rewriting.Failure

set_option autoImplicit false

namespace SymbolicSimplifier

theorem Outcome.isInfinite_toNumber (outcome : Outcome) : outcome.toNumber.isInfinite = false := by
  cases outcome with
  | number n =>
    simp only [toNumber]
    split
    case isTrue => rfl
    case isFalse finite => simpa using finite
  | truth b => rfl
  | complex z => rfl

theorem Prelude.isInfinite_of_result? {handlers : Prelude} {head : Head} {args : List Number}
    {n : Number} (result : handlers.result? head args = some n) : n.isInfinite = false := by
  unfold result? at result
  split at result
  case h_1 => cases result
  case h_2 handler _ =>
    split at result
    case h_1 =>
      cases result
      rfl
    case h_2 =>
      obtain ⟨outcome, _, rfl⟩ := Option.map_eq_some_iff.mp result
      exact outcome.isInfinite_toNumber

namespace Expr

def atoms : Expr → List Expr :=
  bottomUp
    (fun
      | .literal _ => []
      | leaf => [leaf])
    (fun _ parts => parts.flatten)

@[simp] theorem atoms_literal (n : Number) : (literal n).atoms = [] :=
  rfl

@[simp] theorem atoms_node (head : Head) (args : List Expr) :
    (node head args).atoms = args.flatMap atoms :=
  (bottomUp_node _ _ head args).trans (List.flatMap_def ..).symm

variable {handlers : Prelude}

theorem atoms_fold (e : Expr) : (e.fold handlers).atoms = e.atoms :=
  bottomUp_fold (fun _ numbers _ _ => by simp) e

theorem isInfinite_of_fold {head : Head} {args : List Expr} {n : Number}
    (folded : (node head args).fold handlers = .literal n) : n.isInfinite = false := by
  rw [← evaluate?_eq_some_iff, evaluate?_node] at folded
  obtain ⟨numbers, _, result⟩ := Option.bind_eq_some_iff.mp folded
  exact Prelude.isInfinite_of_result? result

theorem fold_node_of_atoms {head : Head} {args : List Expr} (atomic : (node head args).atoms ≠ []) :
    (node head args).fold handlers = .node head (args.map (fold handlers)) := by
  have kept : ((node head args).fold handlers).atoms ≠ [] := by rwa [atoms_fold]
  rw [fold_node, Prelude.settle] at kept ⊢
  split
  case h_1 value =>
    rw [value] at kept
    exact absurd rfl kept
  case h_2 => rfl

theorem mark_fold_of_atoms {s : Expr} (atomic : s.atoms ≠ []) :
    (s.fold handlers).mark = s.mark := by
  cases s with
  | node head args => rw [fold_node_of_atoms atomic, mark, mark, List.length_map]
  | _ => rfl

theorem at?_fold_of_atoms {e s : Expr} {position : List Nat} (here : e.at? position = some s)
    (atomic : s.atoms ≠ []) :
    (e.fold handlers).at? position = some (s.fold handlers) ∧ e.atoms ≠ [] := by
  induction position generalizing e with
  | nil =>
    cases here
    exact ⟨rfl, atomic⟩
  | cons index rest ih =>
    cases e with
    | node head args =>
      obtain ⟨a, found, inner⟩ := Option.bind_eq_some_iff.mp here
      obtain ⟨part, atoms⟩ := ih inner
      have whole : (node head args).atoms ≠ [] := by
        rw [atoms_node, Ne, List.flatMap_eq_nil_iff]
        exact fun none => atoms (none a (List.mem_of_getElem? found))
      refine ⟨?_, whole⟩
      rw [fold_node_of_atoms whole, at?_node_cons, List.getElem?_map, found]
      exact part
    | _ => cases here

theorem at?_of_fold {e t : Expr} {position : List Nat}
    (here : (e.fold handlers).at? position = some t) :
    ∃ s, e.at? position = some s ∧ s.fold handlers = t := by
  induction position generalizing e with
  | nil => exact ⟨e, rfl, Option.some.inj here⟩
  | cons index rest ih =>
    cases e with
    | node head args =>
      rw [fold_node, Prelude.settle] at here
      split at here
      case h_1 => cases here
      case h_2 =>
        rw [at?_node_cons, List.getElem?_map] at here
        obtain ⟨b, mapped, inner⟩ := Option.bind_eq_some_iff.mp here
        obtain ⟨a, found, rfl⟩ := Option.map_eq_some_iff.mp mapped
        obtain ⟨s, inner, folded⟩ := ih inner
        exact ⟨s, Option.bind_eq_some_iff.mpr ⟨a, found, inner⟩, folded⟩
    | _ => cases here

theorem literal_of_fold {s : Expr} {n : Number} (folded : s.fold handlers = .literal n) :
    s = .literal n ∨ n.isInfinite = false ∧ s.atoms = [] := by
  cases s with
  | node head args =>
    have replaced : ((node head args).fold handlers).atoms = [] := by rw [folded, atoms_literal]
    rw [atoms_fold] at replaced
    exact .inr ⟨isInfinite_of_fold folded, replaced⟩
  | _ => exact .inl folded

/-- Folding succeeds, whatever the handlers of the prelude return or raise. In the result every
literal has been there before or is a number that is not infinite, in the place of a part without
variables and constants. Every other part is still in its place, so no variable or constant has been
lost or moved. -/
theorem folding_makes_no_infinity (handlers : Prelude) {e : Expr} (formed : e.isWellFormed = true) :
    e.attemptPass handlers .ok = .ok (e.fold handlers) ∧
    (∀ position n, (e.fold handlers).at? position = some (.literal n) →
      e.at? position = some (.literal n) ∨
        n.isInfinite = false ∧ ∃ s, e.at? position = some s ∧ s.atoms = []) ∧
    (∀ position s, e.at? position = some s → s.atoms ≠ [] →
      ∃ t, (e.fold handlers).at? position = some t ∧ t.mark = s.mark) ∧
    (e.fold handlers).atoms = e.atoms ∧
    ∀ n, e.evaluate? handlers = some n → n.isInfinite = true → e = .literal n := by
  refine ⟨(attemptFold_yields handlers formed).1, ?_, ?_, atoms_fold e, ?_⟩
  · intro position n here
    obtain ⟨s, found, folded⟩ := at?_of_fold here
    rcases literal_of_fold folded with rfl | ⟨finite, closed⟩
    · exact .inl found
    · exact .inr ⟨finite, s, found, closed⟩
  · intro position s here atomic
    exact ⟨_, (at?_fold_of_atoms here atomic).1, mark_fold_of_atoms atomic⟩
  · intro n evaluated infinite
    rcases literal_of_fold ((evaluate?_eq_some_iff ..).mp evaluated) with literal | ⟨finite, _⟩
    · exact literal
    · rw [infinite] at finite
      cases finite

def infinity : Expr :=
  .literal (.float (Float.ofBits 0x7ff0000000000000))

def boundless : Expr :=
  .apply "f" [infinity, .plus infinity, 1 / 0, .named "e" (.float 2.5) + (2 + 3)]

theorem boundless_makes_no_infinity :
    boundless.isWellFormed = true ∧
      boundless.attemptPass .operators .ok =
        .ok (.apply "f" [infinity, .nan, .nan, .named "e" (.float 2.5) + 5]) ∧
      boundless.at? [0] = some infinity ∧
      (boundless.fold .operators).atoms = [.named "e" (.float 2.5)] := by
  have formed : boundless.isWellFormed = true := by decide
  obtain ⟨succeeds, literals, _, atoms, _⟩ := folding_makes_no_infinity .operators formed
  refine ⟨formed, succeeds, ?_, atoms⟩
  rcases literals [0] (.float (Float.ofBits 0x7ff0000000000000)) rfl with here | ⟨finite, _⟩
  · exact here
  · exact absurd finite (by decide)

end Expr

end SymbolicSimplifier
