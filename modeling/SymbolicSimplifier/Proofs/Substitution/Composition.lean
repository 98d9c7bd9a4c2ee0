import SymbolicSimplifier.Proofs.Expr.Congruence

set_option autoImplicit false

namespace SymbolicSimplifier

namespace OrderedMap

variable {α β : Type}

theorem find?_append (first second : List (String × α)) (key : String) :
    (mk (first ++ second)).find? key = ((mk first).find? key).or ((mk second).find? key) := by
  induction first with
  | nil => rfl
  | cons entry rest ih => grind [find?, findIn?]

theorem find?_map (f : α → β) (entries : List (String × α)) (key : String) :
    (mk (entries.map fun entry => (entry.1, f entry.2))).find? key =
      ((mk entries).find? key).map f := by
  induction entries with
  | nil => rfl
  | cons entry rest ih => grind [find?, findIn?]

theorem find?_filter (kept : String → Bool) {key : String} (stays : kept key = true)
    (entries : List (String × α)) :
    (mk (entries.filter fun entry => kept entry.1)).find? key = (mk entries).find? key := by
  induction entries with
  | nil => rfl
  | cons entry rest ih => grind [find?, findIn?]

end OrderedMap

namespace Bindings

/-- Both substitutions in one: the second is carried out in the values of the first, and it adds its
own values for the names that the first leaves free. -/
def andThen (first second : Bindings) : Bindings :=
  ⟨first.entries.map (fun entry => (entry.1, entry.2.substitute second)) ++
    second.entries.filter fun entry => !first.contains entry.1⟩

theorem find?_andThen (first second : Bindings) (name : String) :
    (first.andThen second).find? name =
      ((first.find? name).map (Expr.substitute second)).or (second.find? name) := by
  rw [andThen, OrderedMap.find?_append, OrderedMap.find?_map]
  cases bound : first.find? name with
  | some e => rfl
  | none =>
    have free : (!first.contains name) = true := by simp [OrderedMap.contains, bound]
    exact OrderedMap.find?_filter (!first.contains ·) free second.entries

theorem lookup_andThen (first second : Bindings) (name : String) :
    (first.andThen second).lookup name = (first.lookup name).substitute second := by
  rw [lookup, lookup, find?_andThen]
  cases first.find? name <;> rfl

end Bindings

namespace Expr

theorem substitute_substitute (t : Expr) (first second : Bindings) :
    (t.substitute first).substitute second = t.substitute (first.andThen second) := by
  induction t using Expr.induction with
  | var name => exact (Bindings.lookup_andThen ..).symm
  | node head args ih =>
    rw [substitute_node, substitute_node, substitute_node, List.map_map]
    exact congrArg (node head) (List.map_congr_left ih)
  | _ => rfl

theorem at?_substitute {t s : Expr} {position : List Nat} (here : t.at? position = some s)
    (bindings : Bindings) :
    (t.substitute bindings).at? position = some (s.substitute bindings) := by
  induction position generalizing t with
  | nil =>
    cases here
    rfl
  | cons index rest ih =>
    cases t with
    | node head args =>
      obtain ⟨a, found, inner⟩ := Option.bind_eq_some_iff.mp here
      rw [substitute_node, at?_node_cons, List.getElem?_map, found]
      exact ih inner
    | _ => cases here

/-- Two substitutions in a row are the one of the composed bindings. In each of them what is put in
for a variable is its value as it has been bound, so variables in values are not looked up again. -/
theorem substitution_composes (t : Expr) (first second : Bindings) :
    (∀ name, (first.andThen second).find? name =
      ((first.find? name).map (substitute second)).or (second.find? name)) ∧
    (t.substitute first).substitute second = t.substitute (first.andThen second) ∧
    ∀ position name, t.at? position = some (.var name) →
      (t.substitute first).at? position = some (first.lookup name) := by
  refine ⟨Bindings.find?_andThen first second, substitute_substitute t first second, ?_⟩
  intro position name here
  exact at?_substitute here first

def exchanged : Bindings :=
  .ofList [("x", .var "y"), ("y", .var "x")]

theorem exchange_composes :
    (.var "x" - .var "y" : Expr).at? [0] = some (.var "x") ∧
    ((.var "x" - .var "y" : Expr).substitute exchanged).at? [0] = some (.var "y") ∧
    ((.var "x" - .var "y" : Expr).substitute exchanged).substitute (.ofList [("x", 1)]) =
      .var "y" - 1 := by
  obtain ⟨_, composed, simultaneous⟩ :=
    substitution_composes (.var "x" - .var "y") exchanged (.ofList [("x", 1)])
  exact ⟨rfl, simultaneous [0] "x" rfl, composed.trans rfl⟩

end Expr

end SymbolicSimplifier
