import SymbolicSimplifier.Proofs.Matching.Correspondence
import SymbolicSimplifier.Proofs.Matching.Unification
import SymbolicSimplifier.Proofs.Rewriting.Pass

set_option autoImplicit false

namespace SymbolicSimplifier

open SymbolicSimplifier.Expr

variable {related : Expr → Expr → Prop}

namespace Rule

def Correspond (related : Expr → Expr → Prop) (first second : Rule) : Prop :=
  ∀ a b, related a b → related (first.contract a) (second.contract b)

variable {f : String → String} {names : Set String}

-- A variable of the replacement that the pattern does not bind is left in place by both rules.
theorem correspond_of_rename (alike : Correspondence related) (injective : Set.InjOn f names)
    {rule renamed : Rule} (pattern : renamed.pattern = rule.pattern.rename f)
    (replacement : renamed.replacement = rule.replacement.rename f)
    (known : rule.pattern.VarsIn names) (known' : rule.replacement.VarsIn names)
    (free : ∀ name ∈ rule.replacement.varNames,
      name ∈ rule.pattern.varNames ∨ related (.var name) (.var (f name))) :
    Correspond related rule renamed := by
  intro a b here
  have matched := matchFrom_correspond alike injective known here .empty
  change Option.Rel _ (rule.pattern.match? a) ((rule.pattern.rename f).match? b) at matched
  unfold contract contract?
  rw [pattern, replacement]
  generalize (rule.pattern.rename f).match? b = second at matched
  cases first : rule.pattern.match? a with
  | none =>
    rw [first] at matched
    cases matched
    exact here
  | some bindings =>
    have total := (unifies_of_matchFrom first).total
    rw [first] at matched
    cases matched with
    | some bound =>
      refine substitute_correspond alike fun name occurs => ?_
      refine bound.lookup (known' name occurs) fun unbound => ?_
      refine (free name occurs).resolve_left fun inside => ?_
      obtain ⟨value, found⟩ := total name inside
      simp [unbound] at found

theorem correspond_self (alike : Correspondence related) {rule : Rule}
    (free : ∀ name ∈ rule.replacement.varNames,
      name ∈ rule.pattern.varNames ∨ related (.var name) (.var name)) :
    Correspond related rule rule :=
  correspond_of_rename alike (Set.injOn_id Set.univ) (Expr.rename_id _).symm
    (Expr.rename_id _).symm (fun _ _ => trivial) (fun _ _ => trivial) free

theorem contract_same {rule rule' : Rule} (equal : rule.same rule' = true) (e : Expr) :
    (rule.contract e).same (rule'.contract e) = true := by
  simp only [Rule.same, Bool.and_eq_true] at equal
  obtain ⟨⟨⟨pattern, replacement⟩, _⟩, _⟩ := equal
  unfold contract contract? match?
  rw [matchFrom_eq_of_same pattern]
  cases rule'.pattern.matchFrom e .empty with
  | none => exact same_refl e
  | some bindings => exact substitute_same replacement bindings

theorem correspond_of_same {rule rule' : Rule} (equal : rule.same rule' = true) :
    Correspond (fun a b => a.same b = true) rule rule' := by
  intro a b here
  have itself : Correspond (fun a b => a.same b = true) rule rule :=
    correspond_self same_correspondence fun _ _ => .inr (same_refl _)
  exact same_trans (itself a b here) (contract_same equal b)

end Rule

namespace Prelude

def Respects (handlers : Prelude) (related : Expr → Expr → Prop) : Prop :=
  ∀ head {as bs}, List.Forall₂ related as bs →
    handlers.literalValue? head as = handlers.literalValue? head bs

theorem respects_of_literal? (handlers : Prelude)
    (literals : ∀ a b, related a b → a.literal? = b.literal?) : handlers.Respects related := by
  intro head as bs args
  have numbers : as.mapM Expr.literal? = bs.mapM Expr.literal? := by
    induction args with
    | nil => rfl
    | cons here _ ih => simp only [List.mapM_cons, literals _ _ here, ih]
  simp only [literalValue?, numbers]

theorem respects_empty (related : Expr → Expr → Prop) : Prelude.Respects .empty related := by
  intro head as bs _
  rw [literalValue?_empty, literalValue?_empty]

end Prelude

namespace Expr

theorem IsLeaf.pass {e : Expr} (leaf : e.IsLeaf) (handlers : Prelude) (contract : Expr → Expr) :
    e.pass handlers contract = contract e := by
  cases e with
  | node head args => exact absurd rfl (leaf head args)
  | _ => rfl

theorem Correspondence.pass (alike : Correspondence related) {handlers : Prelude}
    (respects : handlers.Respects related) {contract contract' : Expr → Expr}
    (contracts : ∀ a b, related a b → related (contract a) (contract' b)) {a b : Expr}
    (here : related a b) :
    related (a.pass handlers contract) (b.pass handlers contract') := by
  refine alike.induction
    (P := fun a b => related (a.pass handlers contract) (b.pass handlers contract'))
    ?leaf ?node here
  case leaf =>
    intro a b here left right
    rw [left.pass, right.pass]
    exact contracts a b here
  case node =>
    intro head as bs _ args
    rw [← List.forall₂_map_right_iff, ← List.forall₂_map_left_iff] at args
    rw [pass_node, pass_node, passNode, passNode, respects head args]
    split
    · exact alike.literal _
    · exact contracts _ _ (alike.node head args)

end Expr

end SymbolicSimplifier
