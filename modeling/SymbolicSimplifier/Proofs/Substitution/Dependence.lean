import SymbolicSimplifier.Proofs.Expr.Correspondence
import SymbolicSimplifier.Proofs.Expr.Symbols

set_option autoImplicit false

namespace SymbolicSimplifier

namespace Expr

theorem subterm_var_node_iff (name : String) (head : Head) (args : List Expr) :
    Subterm (.var name) (.node head args) ↔ ∃ a ∈ args, Subterm (.var name) a := by
  rw [Subterm.node_iff, or_iff_right (by simp)]

theorem subterm_var_iff (t : Expr) (name : String) :
    Subterm (.var name) t ↔ .var name ∈ t.symbols := by
  induction t using Expr.induction with
  | node head args ih =>
    have operator : .var name ∉ head.symbols := by cases head <;> simp [Head.symbols]
    rw [subterm_var_node_iff, symbols_node, List.mem_append, or_iff_right operator,
      List.mem_flatMap]
    exact exists_congr fun a => and_congr_right (ih a)
  | _ => simp [IsLeaf.subterm_iff]

theorem substitute_same_substitute_iff (t : Expr) (first second : Bindings) :
    (t.substitute first).same (t.substitute second) = true ↔
      ∀ name, Subterm (.var name) t →
        (first.lookup name).same (second.lookup name) = true := by
  induction t using Expr.induction with
  | node head args ih =>
    have parts : ((node head args).substitute first).same ((node head args).substitute second) =
        true ↔ ∀ a ∈ args, (a.substitute first).same (a.substitute second) = true := by
      simp [List.forall₂_same]
    rw [parts]
    constructor
    · intro equal name inside
      obtain ⟨a, member, inside⟩ := (subterm_var_node_iff ..).mp inside
      exact (ih a member).mp (equal a member) name inside
    · intro equal a member
      exact (ih a member).mpr fun name inside => equal name (.arg member inside)
  | _ => simp [IsLeaf.subterm_iff]

theorem substitute_empty (t : Expr) : t.substitute .empty = t := by
  induction t using Expr.induction with
  | node head args ih => rw [substitute_node, List.map_congr_left ih, List.map_id']
  | _ => rfl

theorem substitute_same_iff (t : Expr) (bindings : Bindings) :
    (t.substitute bindings).same t = true ↔
      ∀ name, Subterm (.var name) t → (bindings.lookup name).same (.var name) = true := by
  have unbound := substitute_same_substitute_iff t bindings .empty
  rwa [substitute_empty] at unbound

theorem isConstant_iff_substitute_same (t : Expr) :
    t.isConstant = true ↔ ∀ bindings, (t.substitute bindings).same t = true := by
  simp only [isConstant_iff, ← subterm_var_iff, substitute_same_iff]
  constructor
  · exact fun constant _ name inside => absurd inside (constant name)
  · intro unchanged name inside
    -- A number in the place of the variable makes a difference.
    have equal := unchanged (OrderedMap.empty.insert name 0) name inside
    rw [Bindings.lookup, OrderedMap.find?_insert, if_pos rfl] at equal
    cases equal

/-- Two substitutions give equal expressions exactly if they have equal values for every variable of
the template, and the template is constant exactly if it is equal to what any substitution gives. -/
theorem substitution_depends_on_variables (t : Expr) :
    (∀ first second : Bindings,
      (t.substitute first).same (t.substitute second) = true ↔
        ∀ name, Subterm (.var name) t →
          (first.lookup name).same (second.lookup name) = true) ∧
    (t.isConstant = true ↔ ∀ bindings, (t.substitute bindings).same t = true) :=
  ⟨substitute_same_substitute_iff t, isConstant_iff_substitute_same t⟩

end Expr

end SymbolicSimplifier
