import SymbolicSimplifier.Proofs.Identities.Lightening
import SymbolicSimplifier.Proofs.Simplifier.Correspondence

set_option autoImplicit false

namespace SymbolicSimplifier

open SymbolicSimplifier.Expr

namespace Bindings

structure IsRenaming (bindings : Bindings) (names : List String) : Prop where
  isVar : ∀ name ∈ names, ∃ other, bindings.lookup name = .var other
  injective : ∀ a ∈ names, ∀ b ∈ names, bindings.lookup a = bindings.lookup b → a = b

theorem IsRenaming.exists_injOn {bindings : Bindings} {names : List String}
    (renames : bindings.IsRenaming names) :
    ∃ f : String → String, (∀ name ∈ names, bindings.lookup name = .var (f name)) ∧
      Set.InjOn f {name | name ∈ names} := by
  have named : ∀ name, ∃ other, name ∈ names → bindings.lookup name = .var other := by
    intro name
    by_cases member : name ∈ names
    · obtain ⟨other, bound⟩ := renames.isVar name member
      exact ⟨other, fun _ => bound⟩
    · exact ⟨name, fun here => absurd here member⟩
  choose f bound using named
  refine ⟨f, bound, ?_⟩
  intro a left b right equal
  apply renames.injective a left b right
  rw [bound a left, bound b right, equal]

end Bindings

def Rule.IsRenamed (rule renamed : Rule) : Prop :=
  ∃ bindings : Bindings, bindings.IsRenaming rule.pattern.varNames ∧
    renamed.pattern = rule.pattern.substitute bindings ∧
    renamed.replacement = rule.replacement.substitute bindings

variable {related : Expr → Expr → Prop}

theorem Rule.IsClosed.correspond {rule renamed : Rule} (closed : rule.IsClosed)
    (renames : rule.IsRenamed renamed) (alike : Correspondence related) :
    Rule.Correspond related rule renamed := by
  obtain ⟨bindings, renames, pattern, replacement⟩ := renames
  obtain ⟨f, bound, injective⟩ := renames.exists_injOn
  rw [substitute_eq_rename bound] at pattern
  rw [substitute_eq_rename fun name occurs => bound name (closed name occurs)] at replacement
  exact Rule.correspond_of_rename alike injective pattern replacement (fun _ occurs => occurs)
    closed fun name occurs => .inl (closed name occurs)

namespace Simplifier

theorem renaming_commutes_with_run (simplifier : Simplifier)
    (closed : ∀ rule ∈ simplifier.rules.rules, rule.IsClosed) {e : Expr} {bindings : Bindings}
    (renames : bindings.IsRenaming e.varNames) (depth limit : Nat) :
    (simplifier.run depth limit e).Alike (fun a b => a.substitute bindings = b)
      (simplifier.run depth limit (e.substitute bindings)) := by
  obtain ⟨f, bound, injective⟩ := renames.exists_injOn
  have alike := renamed_correspondence injective
  have itself : Correspond (Renamed f {name | name ∈ e.varNames}) simplifier simplifier := by
    refine ⟨rfl, Prelude.respects_of_literal? _ ?_, List.forall₂_same.mpr ?_⟩
    · rintro a _ ⟨_, rfl⟩
      cases a <;> simp [literal?]
    · intro rule member
      exact Rule.correspond_self alike fun name occurs => .inl (closed rule member name occurs)
  have start : Renamed f {name | name ∈ e.varNames} e (e.substitute bindings) :=
    ⟨fun _ occurs => occurs, (substitute_eq_rename bound).symm⟩
  -- No rule brings in a variable, so all that a run meets is made of those of the expression.
  refine (run_correspond alike itself depth limit _ _ start).alike.imp ?_
  rintro a _ ⟨inside, rfl⟩
  exact substitute_eq_rename fun name occurs => bound name (inside name occurs)

def swapped : Bindings :=
  .ofList [("x", Identities.y), ("y", Identities.x)]

theorem swapped_lookup (name : String) :
    swapped.lookup name =
      if name = "y" then Identities.x else if name = "x" then Identities.y else .var name := by
  simp only [swapped, Bindings.lookup, OrderedMap.ofList, List.foldl_cons, List.foldl_nil,
    OrderedMap.find?_insert, OrderedMap.find?_empty]
  grind

theorem swapped_isRenaming : swapped.IsRenaming ["x", "y", "x"] where
  isVar := by simp [swapped_lookup]
  injective := by simp [swapped_lookup]

theorem renaming_commutes_with_add_sub_cancel :
    (∀ rule ∈ standard.rules.rules, rule.IsClosed) ∧
      swapped.IsRenaming (Identities.x + Identities.y - Identities.x).varNames ∧
      (standard.run standardDepth 5 (Identities.x + Identities.y - Identities.x)).result =
          .ok Identities.y ∧
      (standard.run standardDepth 5
        ((Identities.x + Identities.y - Identities.x).substitute swapped)).result =
          .ok Identities.x ∧
      (standard.run standardDepth 5 (Identities.x + Identities.y - Identities.x)).Alike
        (fun a b => a.substitute swapped = b)
        (standard.run standardDepth 5
          ((Identities.x + Identities.y - Identities.x).substitute swapped)) :=
  ⟨Identities.standard_isClosed, swapped_isRenaming, rfl, rfl,
    renaming_commutes_with_run standard Identities.standard_isClosed swapped_isRenaming _ 5⟩

example :
    (standard.run standardDepth 5 (Identities.x - Identities.y)).result =
        .ok (Identities.x - Identities.y) ∧
      (standard.run standardDepth 5
        ((Identities.x - Identities.y).substitute (.ofList [("y", Identities.x)]))).result =
          .ok 0 :=
  ⟨rfl, rfl⟩

/-- The new names may be variables of the expression; all results and errors stay the same. -/
theorem renamed_rules_run_alike {first second : Simplifier}
    (handlers : first.handlers = second.handlers)
    (closed : ∀ rule ∈ first.rules.rules, rule.IsClosed)
    (renamed : List.Forall₂ Rule.IsRenamed first.rules.rules second.rules.rules)
    (depth limit : Nat) (e : Expr) :
    (first.run depth limit e).Alike Eq (second.run depth limit e) := by
  have contracts : List.Forall₂ (Rule.Correspond Eq) first.rules.rules second.rules.rules :=
    forall₂_imp_of_mem (fun rule member _ renames =>
      (closed rule member).correspond renames eq_correspondence) renamed
  have simplifiers : Correspond Eq first second :=
    ⟨handlers, Prelude.respects_of_literal? _ fun _ _ => congrArg literal?, contracts⟩
  exact (run_correspond eq_correspondence simplifiers depth limit e e rfl).alike

def cancelling (kept removed : Expr) : Simplifier :=
  ⟨⟨[Identities.rule "add-sub-cancel" (removed + kept - removed) kept]⟩, .operators, standardLimit⟩

theorem renamed_add_sub_cancel_runs_alike :
    (cancelling Identities.y Identities.x).handlers =
        (cancelling Identities.x Identities.y).handlers ∧
      (∀ rule ∈ (cancelling Identities.y Identities.x).rules.rules, rule.IsClosed) ∧
      List.Forall₂ Rule.IsRenamed (cancelling Identities.y Identities.x).rules.rules
        (cancelling Identities.x Identities.y).rules.rules ∧
      ((cancelling Identities.x Identities.y).run standardDepth 5
        (Identities.y + Identities.z - Identities.y)).result = .ok Identities.z ∧
      ((cancelling Identities.y Identities.x).run standardDepth 5
        (Identities.y + Identities.z - Identities.y)).Alike Eq
        ((cancelling Identities.x Identities.y).run standardDepth 5
          (Identities.y + Identities.z - Identities.y)) := by
  have handlers : (cancelling Identities.y Identities.x).handlers =
      (cancelling Identities.x Identities.y).handlers := rfl
  have closed : ∀ rule ∈ (cancelling Identities.y Identities.x).rules.rules, rule.IsClosed := by
    simp [cancelling, Rule.IsClosed]
  have renamed : List.Forall₂ Rule.IsRenamed (cancelling Identities.y Identities.x).rules.rules
      (cancelling Identities.x Identities.y).rules.rules :=
    .cons ⟨swapped, swapped_isRenaming, rfl, rfl⟩ .nil
  exact ⟨handlers, closed, renamed, rfl,
    renamed_rules_run_alike handlers closed renamed standardDepth 5 _⟩

end Simplifier

end SymbolicSimplifier
