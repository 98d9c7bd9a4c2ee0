import SymbolicSimplifier.Proofs.Expr.Congruence

set_option autoImplicit false

namespace SymbolicSimplifier

namespace Expr

def argPositions (index : Nat) : List (List (List Nat)) → List (List Nat)
  | [] => []
  | inner :: rest => inner.map (index :: ·) ++ argPositions (index + 1) rest

def postOrder : Expr → List (List Nat) :=
  bottomUp (fun _ => [[]]) (fun _ parts => argPositions 0 parts ++ [[]])

@[simp] theorem postOrder_node (head : Head) (args : List Expr) :
    (node head args).postOrder = argPositions 0 (args.map postOrder) ++ [[]] :=
  bottomUp_node _ _ head args

theorem IsLeaf.postOrder {e : Expr} (leaf : e.IsLeaf) : e.postOrder = [[]] :=
  leaf.bottomUp _ _

theorem length_argPositions (index : Nat) (parts : List (List (List Nat))) :
    (argPositions index parts).length = (parts.map List.length).sum := by
  induction parts generalizing index with
  | nil => rfl
  | cons inner rest ih => simp [argPositions, ih]

theorem length_postOrder (e : Expr) : e.postOrder.length = e.size := by
  induction e using Expr.induction with
  | node head args ih =>
    rw [postOrder_node, List.length_append, length_argPositions, List.map_map, size_node]
    exact congrArg (·.sum + 1) (List.map_congr_left ih)
  | _ => rfl

theorem mem_argPositions_iff (index : Nat) (parts : List (List (List Nat)))
    (position : List Nat) :
    position ∈ argPositions index parts ↔
      ∃ offset inner rest, parts[offset]? = some inner ∧ rest ∈ inner ∧
        position = (index + offset) :: rest := by
  induction parts generalizing index with
  | nil => simp [argPositions]
  | cons first others ih =>
    have next (offset : Nat) : index + 1 + offset = index + (offset + 1) := by omega
    rw [argPositions, List.mem_append, List.mem_map, ih]
    constructor
    · rintro (⟨rest, member, rfl⟩ | ⟨offset, inner, rest, found, member, rfl⟩)
      · exact ⟨0, first, rest, rfl, member, rfl⟩
      · exact ⟨offset + 1, inner, rest, found, member, by rw [next]⟩
    · rintro ⟨_ | offset, inner, rest, found, member, rfl⟩
      · cases found
        exact .inl ⟨rest, member, rfl⟩
      · exact .inr ⟨offset, inner, rest, found, member, by rw [next]⟩

theorem mem_postOrder_iff (e : Expr) (position : List Nat) :
    position ∈ e.postOrder ↔ (e.at? position).isSome = true := by
  induction e using Expr.induction generalizing position with
  | node head args ih =>
    rw [postOrder_node, List.mem_append, mem_argPositions_iff]
    cases position with
    | nil => simp [at?]
    | cons index rest =>
      rw [at?_node_cons]
      cases found : args[index]? with
      | none => simp [found, ← and_assoc]
      | some a => simp [found, ← and_assoc, ih a (List.mem_of_getElem? found)]
  | _ => cases position <;> simp [IsLeaf.postOrder, at?]

theorem pairwise_argPositions (index : Nat) {parts : List (List (List Nat))}
    (inside : ∀ inner ∈ parts, inner.Pairwise fun earlier later => ¬ earlier <+: later) :
    (argPositions index parts).Pairwise fun earlier later => ¬ earlier <+: later := by
  induction parts generalizing index with
  | nil => exact .nil
  | cons first others ih =>
    simp only [List.forall_mem_cons] at inside
    rw [argPositions, List.pairwise_append, List.pairwise_map]
    refine ⟨?_, ih (index + 1) inside.2, ?_⟩
    · simpa using inside.1
    · -- In different arguments the first indices differ.
      intro earlier left later right
      obtain ⟨rest, _, rfl⟩ := List.mem_map.mp left
      obtain ⟨offset, _, rest', _, _, rfl⟩ := (mem_argPositions_iff ..).mp right
      rw [List.cons_prefix_cons]
      omega

theorem pairwise_postOrder (e : Expr) :
    e.postOrder.Pairwise fun earlier later => ¬ earlier <+: later := by
  induction e using Expr.induction with
  | node head args ih =>
    rw [postOrder_node, List.pairwise_append]
    refine ⟨pairwise_argPositions 0 (by simpa using ih), by simp, ?_⟩
    intro earlier left later right
    obtain ⟨offset, _, rest, _, _, rfl⟩ := (mem_argPositions_iff ..).mp left
    obtain rfl := List.mem_singleton.mp right
    simp
  | _ => simp [IsLeaf.postOrder]

end Expr

end SymbolicSimplifier
