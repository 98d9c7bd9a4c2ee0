import SymbolicSimplifier.Matching
import SymbolicSimplifier.Proofs.Expr.Correspondence

set_option autoImplicit false

namespace SymbolicSimplifier

open SymbolicSimplifier.Expr

variable {related : Expr → Expr → Prop} {f : String → String} {names : Set String}

namespace Bindings

def Correspond (related : Expr → Expr → Prop) (f : String → String) (names : Set String)
    (first second : Bindings) : Prop :=
  ∀ name ∈ names, Option.Rel related (first.find? name) (second.find? (f name))

theorem Correspond.empty : Correspond related f names .empty .empty :=
  fun _ _ => .none

variable {first second : Bindings}

theorem Correspond.insert (injective : Set.InjOn f names)
    (bindings : Correspond related f names first second) {name : String} (known : name ∈ names)
    {a b : Expr} (here : related a b) :
    Correspond related f names (first.insert name a) (second.insert (f name) b) := by
  intro other member
  simp only [OrderedMap.find?_insert, injective.eq_iff known member]
  split
  · exact .some here
  · exact bindings other member

theorem Correspond.bind? (alike : Correspondence related) (injective : Set.InjOn f names)
    (bindings : Correspond related f names first second) {name : String} (known : name ∈ names)
    {a b : Expr} (here : related a b) :
    Option.Rel (Correspond related f names) (first.bind? name a) (second.bind? (f name) b) := by
  have bound := bindings name known
  have inserted := bindings.insert injective known here
  unfold Bindings.bind?
  generalize first.find? name = left, second.find? (f name) = right at bound
  cases bound with
  | none => exact .some inserted
  | some equal =>
    simp only [alike.same equal here]
    split
    · exact .some bindings
    · exact .none

theorem Correspond.lookup (bindings : Correspond related f names first second) {name : String}
    (known : name ∈ names)
    (free : first.find? name = none → related (.var name) (.var (f name))) :
    related (first.lookup name) (second.lookup (f name)) := by
  have bound := bindings name known
  unfold Bindings.lookup
  generalize first.find? name = left, second.find? (f name) = right at bound free
  cases bound with
  | none => exact free rfl
  | some here => exact here

end Bindings

namespace Expr

theorem IsLeaf.matchFrom {e : Expr} (leaf : e.IsLeaf) (head : Head) (patterns : List Expr)
    (bindings : Bindings) : (node head patterns).matchFrom e bindings = none := by
  cases e with
  | node head args => exact absurd rfl (leaf head args)
  | _ => rfl

theorem matchAllFrom_correspond {patterns : List Expr}
    (ih : ∀ pattern ∈ patterns, ∀ {a b}, related a b → ∀ {first second},
      Bindings.Correspond related f names first second →
      Option.Rel (Bindings.Correspond related f names) (pattern.matchFrom a first)
        ((pattern.rename f).matchFrom b second))
    {as bs : List Expr} (args : List.Forall₂ related as bs) {first second : Bindings}
    (bindings : Bindings.Correspond related f names first second) :
    Option.Rel (Bindings.Correspond related f names) (matchAllFrom patterns as first)
      (matchAllFrom (patterns.map (rename f)) bs second) := by
  induction patterns generalizing as bs first second with
  | nil =>
    cases args with
    | nil => exact .some bindings
    | cons => exact .none
  | cons pattern patterns all =>
    cases args with
    | nil => exact .none
    | @cons a b as bs here args =>
      simp only [List.forall_mem_cons] at ih
      have matched := ih.1 here bindings
      simp only [List.map_cons, matchAllFrom]
      generalize pattern.matchFrom a first = left, (pattern.rename f).matchFrom b second = right
        at matched
      cases matched with
      | none => exact .none
      | some middle => exact all ih.2 args middle

theorem matchFrom_correspond (alike : Correspondence related) (injective : Set.InjOn f names)
    {pattern : Expr} (known : pattern.VarsIn names) {a b : Expr} (here : related a b)
    {first second : Bindings}
    (bindings : Bindings.Correspond related f names first second) :
    Option.Rel (Bindings.Correspond related f names) (pattern.matchFrom a first)
      ((pattern.rename f).matchFrom b second) := by
  induction pattern using Expr.induction generalizing a b first second with
  | literal n =>
    rw [rename_literal, matchFrom, matchFrom, alike.same (alike.literal n) here]
    split
    · exact .some bindings
    · exact .none
  | named name n =>
    rw [rename_named, matchFrom, matchFrom, alike.same (alike.named name n) here]
    split
    · exact .some bindings
    · exact .none
  | var name => exact bindings.bind? alike injective (known name (by simp)) here
  | node head patterns ih =>
    rw [rename_node]
    rw [varsIn_node] at known
    cases alike.builtAlike here with
    | leaf left right =>
      rw [left.matchFrom, right.matchFrom]
      exact .none
    | node args =>
      simp only [matchFrom]
      split
      · exact matchAllFrom_correspond
          (fun pattern member => ih pattern member (known pattern member)) args bindings
      · exact .none

theorem substitute_correspond (alike : Correspondence related) {template : Expr}
    {first second : Bindings}
    (values : ∀ name ∈ template.varNames,
      related (first.lookup name) (second.lookup (f name))) :
    related (template.substitute first) ((template.rename f).substitute second) := by
  induction template using Expr.induction with
  | literal n => exact alike.literal n
  | named name n => exact alike.named name n
  | var name => exact values name (by simp)
  | node head args ih =>
    rw [rename_node, substitute_node, substitute_node]
    apply alike.node
    rw [List.forall₂_map_left_iff, List.forall₂_map_right_iff, List.forall₂_map_right_iff,
      List.forall₂_same]
    intro a member
    refine ih a member fun name occurs => values name ?_
    simpa using ⟨a, member, occurs⟩

theorem matchAllFrom_eq_of_same {patterns patterns' : List Expr}
    (ih : ∀ pattern ∈ patterns, ∀ {pattern'}, pattern.same pattern' = true → ∀ e bindings,
      pattern.matchFrom e bindings = pattern'.matchFrom e bindings)
    (equal : List.Forall₂ (fun a b => a.same b = true) patterns patterns') (es : List Expr)
    (bindings : Bindings) :
    matchAllFrom patterns es bindings = matchAllFrom patterns' es bindings := by
  induction equal generalizing es bindings with
  | nil => rfl
  | cons first _ rest =>
    cases es with
    | nil => rfl
    | cons e es =>
      simp only [List.forall_mem_cons] at ih
      simp only [matchAllFrom, ih.1 first, rest ih.2]

theorem matchFrom_eq_of_same {pattern pattern' : Expr} (equal : pattern.same pattern' = true)
    (e : Expr) (bindings : Bindings) :
    pattern.matchFrom e bindings = pattern'.matchFrom e bindings := by
  induction pattern using Expr.induction generalizing pattern' e bindings with
  | literal n =>
    obtain ⟨m, rfl, _⟩ := (literal_same_iff ..).mp equal
    rw [matchFrom, matchFrom, same_correspondence.same equal (same_refl e)]
  | named name n =>
    obtain ⟨m, rfl, _⟩ := (named_same_iff ..).mp equal
    rw [matchFrom, matchFrom, same_correspondence.same equal (same_refl e)]
  | var name =>
    obtain rfl := (var_same_iff ..).mp equal
    rfl
  | node head patterns ih =>
    obtain ⟨patterns', rfl, args⟩ := (node_same_iff ..).mp equal
    cases e with
    | node head' es => simp only [matchFrom, matchAllFrom_eq_of_same ih args]
    | _ => rfl

theorem substitute_same {template template' : Expr} (equal : template.same template' = true)
    (bindings : Bindings) :
    (template.substitute bindings).same (template'.substitute bindings) = true := by
  induction template using Expr.induction generalizing template' with
  | literal n =>
    obtain ⟨m, rfl, _⟩ := (literal_same_iff ..).mp equal
    exact equal
  | named name n =>
    obtain ⟨m, rfl, _⟩ := (named_same_iff ..).mp equal
    exact equal
  | var name =>
    obtain rfl := (var_same_iff ..).mp equal
    exact same_refl _
  | node head args ih =>
    obtain ⟨args', rfl, each⟩ := (node_same_iff ..).mp equal
    rw [substitute_node, substitute_node]
    apply same_correspondence.node
    rw [List.forall₂_map_left_iff, List.forall₂_map_right_iff]
    exact forall₂_imp_of_mem (fun a member _ equal => ih a member equal) each

end Expr

end SymbolicSimplifier
