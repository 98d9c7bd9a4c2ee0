import SymbolicSimplifier.Expr.Arithmetic
import SymbolicSimplifier.Proofs.Rewriting.Correspondence

set_option autoImplicit false

namespace SymbolicSimplifier

namespace Expr

variable {handlers : Prelude} {pattern : Expr}

def search (handlers : Prelude) (pattern : Expr) : Expr → Search :=
  bottomUp (fun leaf => ⟨leaf, (pattern.match? leaf).isSome⟩) (searchNode handlers pattern)

theorem search_node (head : Head) (args : List Expr) :
    search handlers pattern (.node head args) =
      searchNode handlers pattern head (args.map (search handlers pattern)) :=
  bottomUp_node _ _ head args

theorem folded_search (e : Expr) : (search handlers pattern e).folded = e.fold handlers := by
  induction e using Expr.induction with
  | node head args ih =>
    have parts : args.map (Search.folded ∘ search handlers pattern) = args.map (fold handlers) :=
      List.map_congr_left ih
    rw [search_node, searchNode, List.map_map, parts, fold_node, Prelude.settle]
    cases handlers.literalValue? head (args.map (fold handlers)) <;> rfl
  | _ => rfl

theorem occursIn_node (head : Head) (args : List Expr) :
    pattern.occursIn handlers (.node head args) =
      (args.any (pattern.occursIn handlers) ||
        ((handlers.literalValue? head (args.map (fold handlers))).isNone &&
          (pattern.match? (.node head (args.map (fold handlers)))).isSome)) := by
  have parts : args.map (Search.folded ∘ search handlers pattern) = args.map (fold handlers) :=
    List.map_congr_left fun a _ => folded_search a
  change (search handlers pattern (.node head args)).found = _
  rw [search_node, searchNode, List.map_map, parts, List.any_map]
  cases handlers.literalValue? head (args.map (fold handlers)) with
  | none => rfl
  | some n => exact (Bool.or_false _).symm

theorem IsLeaf.occursIn {e : Expr} (leaf : e.IsLeaf) :
    pattern.occursIn handlers e = (pattern.match? e).isSome :=
  congrArg Search.found (leaf.bottomUp _ _)

theorem IsLeaf.fold {e : Expr} (leaf : e.IsLeaf) : e.fold handlers = e :=
  leaf.bottomUp _ _

theorem occursIn_iff (e : Expr) :
    pattern.occursIn handlers e = true ↔
      ∃ s, Subterm s e ∧ (∀ n, s.fold handlers = .literal n → s = .literal n) ∧
        (pattern.match? (s.fold handlers)).isSome = true := by
  induction e using Expr.induction with
  | node head args ih =>
    rw [occursIn_node, Bool.or_eq_true, List.any_eq_true, Bool.and_eq_true,
      Option.isNone_iff_eq_none]
    constructor
    · rintro (⟨a, member, occurs⟩ | ⟨unfolded, matched⟩)
      · obtain ⟨s, inside, tried⟩ := (ih a member).mp occurs
        exact ⟨s, .arg member inside, tried⟩
      · refine ⟨node head args, .refl _, ?_⟩
        rw [fold_node, Prelude.settle, unfolded]
        exact ⟨fun _ literal => (nomatch literal), matched⟩
    · rintro ⟨s, inside, kept, matched⟩
      rcases (Subterm.node_iff ..).mp inside with rfl | ⟨a, member, inside⟩
      · rw [fold_node, Prelude.settle] at kept matched
        cases value : handlers.literalValue? head (args.map (fold handlers)) with
        | none =>
          rw [value] at matched
          exact .inr ⟨rfl, matched⟩
        | some n =>
          rw [value] at kept
          nomatch kept n rfl
      · exact .inl ⟨a, member, (ih a member).mpr ⟨s, inside, kept, matched⟩⟩
  | _ => simp [IsLeaf.occursIn, IsLeaf.fold, IsLeaf.subterm_iff]

end Expr

open SymbolicSimplifier.Expr

namespace Rule

variable {handlers : Prelude} {rule : Rule}

theorem contract_of_unmatched {e : Expr} (unmatched : (rule.pattern.match? e).isSome = false) :
    rule.contract e = e := by
  rw [Option.isSome_eq_false_iff, Option.isNone_iff_eq_none] at unmatched
  rw [contract, contract?, unmatched]
  rfl

theorem rewrite_eq_fold_of_absent {e : Expr} (absent : rule.pattern.occursIn handlers e = false) :
    rule.rewrite handlers e = e.fold handlers := by
  induction e using Expr.induction with
  | node head args ih =>
    rw [occursIn_node, Bool.or_eq_false_iff, List.any_eq_false] at absent
    obtain ⟨inside, here⟩ := absent
    -- The rule is tried on the node over the folded arguments.
    have parts : args.map (rule.rewrite handlers) = args.map (fold handlers) :=
      List.map_congr_left fun a member => ih a member (Bool.eq_false_iff.mpr (inside a member))
    rw [rewrite_node, parts, rewriteNode, fold_node, Prelude.settle]
    cases value : handlers.literalValue? head (args.map (fold handlers)) with
    | none =>
      rw [value] at here
      exact contract_of_unmatched here
    | some n => rfl
  | _ => exact contract_of_unmatched absent

theorem rewriteWith_of_absent {pattern e : Expr} (absent : pattern.occursIn handlers e = false)
    (replacement : Value) :
    e.rewriteWith handlers (.expr pattern) replacement = .ok (e.fold handlers) := by
  change (if pattern.occursIn handlers e then _ else _) = _
  rw [absent]
  rfl

theorem rewriteWith_eq_rewrite (rule : Rule) (handlers : Prelude) (e : Expr) :
    e.rewriteWith handlers (.expr rule.pattern) (.expr rule.replacement) =
      .ok (rule.rewrite handlers e) := by
  cases occurs : rule.pattern.occursIn handlers e with
  | false => rw [rewriteWith_of_absent occurs, rewrite_eq_fold_of_absent occurs]
  | true =>
    change (if rule.pattern.occursIn handlers e then _ else _) = _
    rw [occurs]
    rfl

/-- If the pattern matches the folded form of no part, the pass is folding and nothing else, even
with a replacement that is no expression. -/
theorem rewrite_eq_fold_of_unmatched {e : Expr}
    (unmatched : ∀ s, Subterm s e → rule.pattern.match? (s.fold handlers) = none) :
    rule.rewrite handlers e = e.fold handlers ∧
      ∀ replacement : Value,
        e.rewriteWith handlers (.expr rule.pattern) replacement = .ok (e.fold handlers) := by
  have absent : rule.pattern.occursIn handlers e = false := by
    refine Bool.eq_false_iff.mpr fun occurs => ?_
    obtain ⟨s, inside, _, matched⟩ := (occursIn_iff e).mp occurs
    rw [unmatched s inside] at matched
    cases matched
  exact ⟨rewrite_eq_fold_of_absent absent, rewriteWith_of_absent absent⟩

def onePlusTwo : Rule :=
  ⟨1 + 2, .var "y", none, none⟩

theorem onePlusTwo_only_folds :
    (∀ s, Subterm s (.var "x" * (1 + 2)) →
      onePlusTwo.pattern.match? (s.fold .operators) = none) ∧
    (onePlusTwo.pattern.match? (1 + 2)).isSome = true ∧
    onePlusTwo.rewrite .operators (.var "x" * (1 + 2)) = .var "x" * 3 ∧
    (.var "x" * (1 + 2) : Expr).rewriteWith .operators (.expr (1 + 2)) (.text "y") =
      .ok (.var "x" * 3) := by
  have unmatched : ∀ s, Subterm s (.var "x" * (1 + 2)) →
      onePlusTwo.pattern.match? (s.fold .operators) = none := by
    intro s inside
    simp only [mul_eq, add_eq, ofNat_eq, Subterm.node_iff, List.mem_cons, List.not_mem_nil,
      or_false, exists_eq_or_imp, exists_eq_left, IsLeaf.subterm_iff, isLeaf_var, isLeaf_literal]
      at inside
    rcases inside with rfl | rfl | rfl | rfl | rfl <;> rfl
  obtain ⟨folds, whatever⟩ := rewrite_eq_fold_of_unmatched unmatched
  exact ⟨unmatched, by decide, folds, whatever (.text "y")⟩

end Rule

end SymbolicSimplifier
