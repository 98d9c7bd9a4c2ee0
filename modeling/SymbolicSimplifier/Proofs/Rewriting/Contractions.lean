import SymbolicSimplifier.Proofs.Expr.PostOrder
import SymbolicSimplifier.Proofs.Rewriting.FoldingOrder
import SymbolicSimplifier.Proofs.Rewriting.Unmatched

set_option autoImplicit false

namespace SymbolicSimplifier

namespace Expr

section Sequences

def contractAt (result? : Expr → Option Expr) (e : Expr) (position : List Nat) : Expr :=
  match (e.at? position).bind result? with
  | some t => replaceAt t position e
  | none => e

inductive ContractsAlong (result? : Expr → Option Expr) : List (List Nat) → Expr → Expr → Prop
  | nil (e : Expr) : ContractsAlong result? [] e e
  | cons {position : List Nat} {rest : List (List Nat)} {e f g : Expr} :
      ContractsAt result? position e f → ContractsAlong result? rest f g →
        ContractsAlong result? (position :: rest) e g

variable {result? : Expr → Option Expr}

theorem contractsAt_or_eq (result? : Expr → Option Expr) (e : Expr) (position : List Nat) :
    ContractsAt result? position e (contractAt result? e position) ∨
      contractAt result? e position = e := by
  unfold contractAt
  split
  case h_1 t found =>
    obtain ⟨s, here, contracted⟩ := Option.bind_eq_some_iff.mp found
    exact .inl ⟨s, t, here, contracted, rfl⟩
  case h_2 => exact .inr rfl

theorem exists_contractsAlong (positions : List (List Nat)) (e : Expr) :
    ∃ taken, taken.Sublist positions ∧
      ContractsAlong result? taken e (positions.foldl (contractAt result?) e) := by
  induction positions generalizing e with
  | nil => exact ⟨[], .slnil, .nil e⟩
  | cons position rest ih =>
    rw [List.foldl_cons]
    obtain ⟨taken, within, along⟩ := ih (contractAt result? e position)
    rcases contractsAt_or_eq result? e position with contracts | unchanged
    · exact ⟨position :: taken, within.cons_cons position, .cons contracts along⟩
    · rw [unchanged] at along ⊢
      exact ⟨taken, within.cons position, along⟩

theorem contractAt_root (e : Expr) : contractAt result? e [] = (result? e).getD e := by
  rw [contractAt, at?, Option.bind_some]
  cases result? e <;> rfl

theorem contractAt_arg (head : Head) (before : List Expr) (a : Expr) (after : List Expr)
    (rest : List Nat) :
    contractAt result? (node head (before ++ a :: after)) (before.length :: rest) =
      .node head (before ++ contractAt result? a rest :: after) := by
  have part : (node head (before ++ a :: after)).at? (before.length :: rest) = a.at? rest := by
    simp [at?_node_cons]
  rw [contractAt, part, contractAt]
  split
  case h_1 t _ =>
    rw [replaceAt, List.modify_eq_take_cons_drop (by simp)]
    simp
  case h_2 => rfl

theorem foldl_contractAt_arg (head : Head) (before : List Expr) (a : Expr) (after : List Expr)
    (positions : List (List Nat)) :
    (positions.map (before.length :: ·)).foldl (contractAt result?)
        (node head (before ++ a :: after)) =
      .node head (before ++ positions.foldl (contractAt result?) a :: after) := by
  induction positions generalizing a with
  | nil => rfl
  | cons position rest ih =>
    rw [List.map_cons, List.foldl_cons, contractAt_arg, ih, List.foldl_cons]

-- The arguments have their turns from left to right; those before the current one are finished.
theorem foldl_contractAt_args (head : Head) (finished args : List Expr) :
    (argPositions finished.length (args.map postOrder)).foldl (contractAt result?)
        (node head (finished ++ args)) =
      .node head (finished ++ args.map fun a => a.postOrder.foldl (contractAt result?) a) := by
  induction args generalizing finished with
  | nil => rfl
  | cons a rest ih =>
    have later := ih (finished ++ [a.postOrder.foldl (contractAt result?) a])
    rw [List.length_append, List.length_singleton, List.append_assoc, List.append_assoc] at later
    rw [List.map_cons, argPositions, List.foldl_append, foldl_contractAt_arg]
    exact later

end Sequences

/-- What a part gives way to in a pass: the literal that it is folded to, and only if it cannot be
folded what it is contracted to. -/
def reduct? (handlers : Prelude) (contract? : Expr → Option Expr) (e : Expr) : Option Expr :=
  match handlers.nodeValue? e with
  | some n => some (.literal n)
  | none => contract? e

variable {handlers : Prelude} {contract? : Expr → Option Expr}

theorem getD_reduct?_node (head : Head) (args : List Expr) :
    (reduct? handlers contract? (.node head args)).getD (.node head args) =
      passNode handlers (fun s => (contract? s).getD s) head args := by
  rw [reduct?, Prelude.nodeValue?, passNode]
  cases handlers.literalValue? head args <;> rfl

theorem foldl_postOrder_eq_pass (e : Expr) :
    e.postOrder.foldl (contractAt (reduct? handlers contract?)) e =
      e.pass handlers fun s => (contract? s).getD s := by
  induction e using Expr.induction with
  | node head args ih =>
    have finished : (argPositions 0 (args.map postOrder)).foldl
        (contractAt (reduct? handlers contract?)) (node head args) =
          .node head (args.map (pass handlers fun s => (contract? s).getD s)) := by
      rw [← List.map_congr_left ih]
      exact foldl_contractAt_args head [] args
    rw [postOrder_node, List.foldl_append, pass_node, ← getD_reduct?_node, ← contractAt_root]
    exact congrArg (contractAt _ · []) finished
  | _ => exact contractAt_root _

end Expr

open SymbolicSimplifier.Expr

/-- One pass of a rule contracts, in post-order, whatever can be contracted when its turn comes. No
part has more than one turn, and none has it after a part around it, so nothing is contracted inside
what has been put in. -/
theorem Rule.rewrite_contracts_in_postOrder (handlers : Prelude) (rule : Rule) (e : Expr) :
    e.rewriteWith handlers (.expr rule.pattern) (.expr rule.replacement) =
      .ok (rule.rewrite handlers e) ∧
    rule.rewrite handlers e =
      e.postOrder.foldl (contractAt (reduct? handlers rule.contract?)) e ∧
    ∃ positions,
      ContractsAlong (reduct? handlers rule.contract?) positions e (rule.rewrite handlers e) ∧
      positions.Sublist e.postOrder ∧
      positions.length ≤ e.size ∧
      (∀ position ∈ positions, (e.at? position).isSome = true) ∧
      positions.Pairwise fun earlier later => ¬ earlier <+: later := by
  have turns : rule.rewrite handlers e =
      e.postOrder.foldl (contractAt (reduct? handlers rule.contract?)) e :=
    (foldl_postOrder_eq_pass e).symm
  obtain ⟨positions, within, along⟩ := exists_contractsAlong e.postOrder e
  refine ⟨rule.rewriteWith_eq_rewrite handlers e, turns, positions, turns ▸ along, within, ?_⟩
  refine ⟨?bounded, ?placed, ?outside⟩
  case bounded => exact length_postOrder e ▸ within.length_le
  case placed => exact fun position taken => (mem_postOrder_iff ..).mp (within.subset taken)
  case outside => exact (pairwise_postOrder e).sublist within

example : Rule.rewrite .operators ⟨.var "x", .apply "f" [.var "x"], none, none⟩ (.var "y" + 1) =
    .apply "f" [.apply "f" [.var "y"] + .apply "f" [1]] :=
  rfl

end SymbolicSimplifier
