import SymbolicSimplifier.Proofs.Folding.Basic
import SymbolicSimplifier.Proofs.Rewriting.Correspondence

set_option autoImplicit false

namespace SymbolicSimplifier

open SymbolicSimplifier.Expr

namespace Rule

def MatchesNodes (rule : Rule) : Prop :=
  ∃ head patterns, rule.pattern = .node head patterns

theorem MatchesNodes.contract_leaf {rule : Rule} (nodes : rule.MatchesNodes) {e : Expr}
    (leaf : e.IsLeaf) : rule.contract e = e := by
  obtain ⟨head, patterns, pattern⟩ := nodes
  simp [contract, contract?, match?, pattern, leaf.matchFrom]

theorem MatchesNodes.rewrite_literal {rule : Rule} (nodes : rule.MatchesNodes)
    (handlers : Prelude) (n : Number) : rule.rewrite handlers (.literal n) = .literal n :=
  nodes.contract_leaf (isLeaf_literal n)

theorem contract_of_head_ne {rule : Rule} {head head' : Head} {patterns : List Expr}
    (pattern : rule.pattern = .node head patterns) (other : head ≠ head') (args : List Expr) :
    rule.contract (.node head' args) = .node head' args := by
  simp [contract, contract?, match?, pattern, matchFrom, other]

end Rule

theorem Prelude.exists_literal_of_literalValue? {handlers : Prelude} {head : Head}
    {args : List Expr} {n : Number} (folded : handlers.literalValue? head args = some n) :
    ∀ a ∈ args, ∃ k, a = .literal k := by
  obtain ⟨numbers, rfl, _⟩ := (literalValue?_eq_some_iff ..).mp folded
  intro a member
  obtain ⟨k, _, rfl⟩ := List.mem_map.mp member
  exact ⟨k, rfl⟩

namespace Expr

theorem literal_or_symbolic (e : Expr) : (∃ n, e = .literal n) ∨ e.literal? = none := by
  cases e with
  | literal n => exact .inl ⟨n, rfl⟩
  | _ => exact .inr rfl

theorem literal_same_of_symbolic (n : Number) {e : Expr} (symbolic : e.literal? = none) :
    (literal n).same e = false := by
  cases e with
  | literal m => cases symbolic
  | _ => rfl

theorem symbolic_of_same {a b : Expr} (equal : a.same b = true) (symbolic : b.literal? = none) :
    a.literal? = none := by
  rcases a.literal_or_symbolic with ⟨n, rfl⟩ | found
  · rw [literal_same_of_symbolic n symbolic] at equal
    cases equal
  · exact found

variable {handlers : Prelude} {contract : Expr → Expr}

theorem pass_eq_literal_of_fold (fixes : ∀ n, contract (.literal n) = .literal n) {e : Expr}
    {n : Number} (folded : e.fold handlers = .literal n) :
    e.pass handlers contract = .literal n := by
  induction e using Expr.induction generalizing n with
  | literal m =>
    obtain rfl : m = n := literal.inj folded
    exact fixes m
  | named name m => cases folded
  | var name => cases folded
  | node head args ih =>
    rw [fold_node, Prelude.settle] at folded
    split at folded
    case h_1 found =>
      -- Every argument has been folded to a literal, and so the pass has found the same ones.
      have parts : args.map (pass handlers contract) = args.map (fold handlers) := by
        refine List.map_congr_left fun a member => ?_
        obtain ⟨k, literal⟩ := Prelude.exists_literal_of_literalValue? found _
          (List.mem_map_of_mem member)
        rw [literal, ih a member literal]
      rw [pass_node, parts, passNode, found]
      exact folded
    case h_2 => cases folded

end Expr

end SymbolicSimplifier
