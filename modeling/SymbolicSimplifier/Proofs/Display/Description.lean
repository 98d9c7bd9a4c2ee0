import SymbolicSimplifier.Error

set_option autoImplicit false

namespace SymbolicSimplifier

theorem allDescribed_isSome (items : List (Option String)) :
    (allDescribed items).isSome = items.all Option.isSome := by
  induction items with
  | nil => rfl
  | cons item items ih =>
    rw [List.all_cons, ← ih]
    cases item <;> cases described : allDescribed items <;> simp [allDescribed, described]

theorem Number.describe?_isSome (n : Number) : n.describe?.isSome = n.hasText := by
  cases n with
  | int n => cases printable : (Number.int n).hasText <;> simp [describe?, printable]
  | float => rfl

namespace Expr

def hasDescription : Expr → Bool :=
  bottomUp
    (fun
      | .literal n => n.hasText
      | .named _ n => n.hasText
      | _ => true)
    (fun _ args => args.all id)

theorem describe?_isSome (e : Expr) : e.describe?.isSome = e.hasDescription := by
  induction e using Expr.induction with
  | literal n =>
    rw [show (literal n).hasDescription = n.hasText from rfl, ← n.describe?_isSome]
    cases described : n.describe? <;> simp [describe?, bottomUp, describeLeaf?, described]
  | named name n =>
    rw [show (named name n).hasDescription = n.hasText from rfl, ← n.describe?_isSome]
    cases described : n.describe? <;> simp [describe?, bottomUp, describeLeaf?, described]
  | var => rfl
  | node head args ih =>
    have each : args.map (fun a => a.describe?.isSome) = args.map hasDescription :=
      List.map_congr_left ih
    calc (node head args).describe?.isSome
        = (args.map fun a => a.describe?.isSome).all id := by
          rw [describe?, bottomUp_node, Option.isSome_map, allDescribed_isSome, List.all_map,
            List.all_map]
          rfl
      _ = (node head args).hasDescription := by
          rw [each, hasDescription, bottomUp_node]

end Expr

namespace Value

mutual

def hasDescription : Value → Bool
  | .expr e => e.hasDescription
  | .number n => n.hasText
  | .list values => haveDescriptions values
  | .tuple values => haveDescriptions values
  | _ => true

def haveDescriptions : List Value → Bool
  | [] => true
  | value :: values => value.hasDescription && haveDescriptions values

end

mutual

theorem describe?_isSome : ∀ value : Value, value.describe?.isSome = value.hasDescription
  | .expr e => e.describe?_isSome
  | .number n => n.describe?_isSome
  | .truth _ | .text _ | .absent => rfl
  | .list values => by
    rw [hasDescription, ← describeAll?_isSome values]
    cases described : describeAll? values <;> simp [describe?, described]
  | .tuple values => by
    rw [hasDescription, ← describeAll?_isSome values]
    cases described : describeAll? values <;> simp [describe?, described]

theorem describeAll?_isSome :
    ∀ values : List Value, (describeAll? values).isSome = haveDescriptions values
  | [] => rfl
  | value :: values => by
    rw [haveDescriptions, ← describe?_isSome value, ← describeAll?_isSome values]
    cases described : value.describe? <;> cases others : describeAll? values <;>
      simp [describeAll?, described, others]

end

theorem not_hasDescription_of_long {n : Int} (long : Number.textBound ≤ n.natAbs) :
    (Value.expr (.literal (.int n))).hasDescription = false := by
  simp only [hasDescription, Expr.hasDescription, Expr.bottomUp, Number.hasText,
    decide_eq_false_iff_not, Nat.not_lt]
  exact long

end Value

namespace Error

variable {got : Value}

theorem about_of_hasDescription (describable : got.hasDescription = true) (kind : ErrorKind)
    (before after : String) : ∃ text, got.describe? = some text ∧
      about kind before got after = ⟨kind, some (before ++ text ++ after)⟩ := by
  rw [← got.describe?_isSome] at describable
  obtain ⟨text, described⟩ := Option.isSome_iff_exists.mp describable
  exact ⟨text, described, by simp [about, described]⟩

theorem about_of_not_hasDescription (undescribable : got.hasDescription = false) (kind : ErrorKind)
    (before after : String) : about kind before got after = ⟨.value, none⟩ := by
  rw [← got.describe?_isSome, Option.isSome_eq_false_iff, Option.isNone_iff_eq_none]
    at undescribable
  simp [about, undescribable]

end Error

end SymbolicSimplifier
