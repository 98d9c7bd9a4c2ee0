import SymbolicSimplifier.Proofs.Expr.Correspondence
import SymbolicSimplifier.Proofs.Number.Exact

set_option autoImplicit false

namespace SymbolicSimplifier

section Pairs

variable {α β : Type} {R : α → β → Prop}

theorem forall₂_iff_getElem? (as : List α) (bs : List β) :
    List.Forall₂ R as bs ↔ ∀ index : Nat, Option.Rel R as[index]? bs[index]? := by
  constructor
  · intro pairs
    induction pairs with
    | nil => exact fun _ => .none
    | cons first _ ih =>
      intro index
      cases index with
      | zero => exact .some first
      | succ index => exact ih index
  · intro each
    induction as generalizing bs with
    | nil =>
      cases bs with
      | nil => exact .nil
      | cons b bs => nomatch each 0
    | cons a as ih =>
      cases bs with
      | nil => nomatch each 0
      | cons b bs =>
        cases each 0 with
        | some first => exact .cons first (ih bs fun index => each (index + 1))

theorem forall₂_modify {as : List α} {bs : List β} (pairs : List.Forall₂ R as bs) {f : α → α}
    {g : β → β} (keeps : ∀ a b, R a b → R (f a) (g b)) (index : Nat) :
    List.Forall₂ R (as.modify index f) (bs.modify index g) := by
  induction pairs generalizing index with
  | nil => simp
  | cons first rest ih =>
    cases index with
    | zero => exact .cons (keeps _ _ first) rest
    | succ index => exact .cons first (ih index)

end Pairs

namespace Expr

def at? : Expr → List Nat → Option Expr
  | e, [] => some e
  | .node _ args, index :: rest => args[index]?.bind fun a => a.at? rest
  | _, _ :: _ => none

def replaceAt (part : Expr) : List Nat → Expr → Expr
  | [], _ => part
  | index :: rest, .node head args => .node head (args.modify index (replaceAt part rest))
  | _ :: _, e => e

inductive Mark where
  | literal (value : ExactValue)
  | named (name : String) (value : ExactValue)
  | var (name : String)
  | node (head : Head) (count : Nat)
deriving DecidableEq

def mark : Expr → Mark
  | .literal n => .literal n.exact
  | .named name n => .named name n.exact
  | .var name => .var name
  | .node head args => .node head args.length

theorem mark_eq_of_same {a b : Expr} (equal : a.same b = true) : a.mark = b.mark := by
  cases a with
  | literal n =>
    obtain ⟨m, rfl, value⟩ := (literal_same_iff ..).mp equal
    exact congrArg Mark.literal value
  | named name n =>
    obtain ⟨m, rfl, value⟩ := (named_same_iff ..).mp equal
    exact congrArg (Mark.named name) value
  | var name =>
    obtain rfl := (var_same_iff ..).mp equal
    rfl
  | node head args =>
    obtain ⟨bs, rfl, pairs⟩ := (node_same_iff ..).mp equal
    exact congrArg (Mark.node head) pairs.length_eq

theorem IsLeaf.at?_cons {e : Expr} (leaf : e.IsLeaf) (index : Nat) (rest : List Nat) :
    e.at? (index :: rest) = none := by
  cases e with
  | node head args => exact absurd rfl (leaf head args)
  | _ => rfl

theorem IsLeaf.replaceAt_cons {e : Expr} (leaf : e.IsLeaf) (part : Expr) (index : Nat)
    (rest : List Nat) : replaceAt part (index :: rest) e = e := by
  cases e with
  | node head args => exact absurd rfl (leaf head args)
  | _ => rfl

theorem at?_same {a b : Expr} (equal : a.same b = true) (position : List Nat) :
    Option.Rel (fun s t => s.same t = true) (a.at? position) (b.at? position) := by
  induction position generalizing a b with
  | nil =>
    rw [at?, at?]
    exact .some equal
  | cons index rest ih =>
    cases same_correspondence.builtAlike equal with
    | leaf left right =>
      rw [left.at?_cons, right.at?_cons]
      exact .none
    | @node head as bs args =>
      have parts := (forall₂_iff_getElem? as bs).mp args index
      rw [at?, at?]
      generalize as[index]? = first, bs[index]? = second at parts
      cases parts with
      | none => exact .none
      | some here => exact ih here

theorem at?_node_cons (head : Head) (args : List Expr) (index : Nat) (rest : List Nat) :
    (node head args).at? (index :: rest) = args[index]?.bind fun a => a.at? rest :=
  rfl

theorem same_of_marks {a b : Expr}
    (marks : ∀ position, (a.at? position).map mark = (b.at? position).map mark) :
    a.same b = true := by
  have root : a.mark = b.mark := by simpa [at?] using marks []
  induction a using Expr.induction generalizing b with
  | node head as ih =>
    cases b with
    | node head' bs =>
      obtain ⟨rfl, count⟩ := Mark.node.inj root
      refine (node_same_iff ..).mpr ⟨bs, rfl, List.forall₂_iff_get.mpr ⟨count, ?_⟩⟩
      intro index left right
      have parts (rest : List Nat) :
          (as[index].at? rest).map mark = (bs[index].at? rest).map mark := by
        simpa [at?_node_cons, left, right] using marks (index :: rest)
      exact ih _ (List.getElem_mem left) parts (by simpa [at?] using parts [])
    | _ => cases root
  | _ => cases b <;> simp_all [mark]

theorem same_iff_marks (a b : Expr) :
    a.same b = true ↔ ∀ position, (a.at? position).map mark = (b.at? position).map mark := by
  refine ⟨fun equal position => ?_, same_of_marks⟩
  have parts := at?_same equal position
  generalize a.at? position = first, b.at? position = second at parts
  cases parts with
  | none => rfl
  | some here => exact congrArg some (mark_eq_of_same here)

theorem replaceAt_same {a b s t : Expr} (equal : a.same b = true) (parts : s.same t = true)
    (position : List Nat) : (replaceAt s position a).same (replaceAt t position b) = true := by
  induction position generalizing a b with
  | nil => exact parts
  | cons index rest ih =>
    cases same_correspondence.builtAlike equal with
    | leaf left right => rwa [left.replaceAt_cons, right.replaceAt_cons]
    | node args =>
      exact same_correspondence.node _ (forall₂_modify args (fun _ _ here => ih here) index)

theorem replaceAt_of_at? {e s : Expr} {position : List Nat} (here : e.at? position = some s)
    (t : Expr) : (replaceAt t position e).at? position = some t ∧ replaceAt s position e = e := by
  induction position generalizing e with
  | nil =>
    cases here
    exact ⟨rfl, rfl⟩
  | cons index rest ih =>
    cases e with
    | node head args =>
      obtain ⟨a, found, inner⟩ := Option.bind_eq_some_iff.mp here
      obtain ⟨inside, rfl⟩ := List.getElem?_eq_some_iff.mp found
      obtain ⟨placed, kept⟩ := ih inner
      constructor
      · simp [replaceAt, at?_node_cons, inside, placed]
      · refine congrArg (node head) (List.ext_getElem? fun other => ?_)
        by_cases same : index = other
        · subst same
          simp [inside, kept]
        · simp [same]
    | _ => cases here

/-- Equality compares numbers by the exact values that they stand for. It is an equivalence that
allows any part to be replaced by an equal one, and it says that at all positions the same kinds of
expressions stand, with the same names and numbers of arguments. -/
theorem same_isCongruence :
    Equivalence (fun a b : Expr => a.same b = true) ∧
    (∀ (n : Number) (value : ExactValue), n.Stands value ↔ n.exact = value) ∧
    (∀ m n : Number, (literal m).same (literal n) = true ↔ m.exact = n.exact) ∧
    (∀ (e s t : Expr) (position : List Nat), e.at? position = some s → s.same t = true →
      (replaceAt t position e).at? position = some t ∧
        (replaceAt t position e).same e = true) ∧
    ∀ a b : Expr,
      a.same b = true ↔ ∀ position, (a.at? position).map mark = (b.at? position).map mark := by
  refine ⟨⟨same_refl, same_symm, same_trans⟩, Number.stands_iff, ?_, ?_, same_iff_marks⟩
  · intro m n
    simp
  · intro e s t position here equal
    obtain ⟨placed, kept⟩ := replaceAt_of_at? here t
    refine ⟨placed, ?_⟩
    have replaced := replaceAt_same (same_refl e) (same_symm equal) position
    rwa [kept] at replaced

theorem negative_zero_isCongruent :
    (ofInt 0).same (literal (.float (-0.0))) = true ∧
      (var "x" + 0).at? [1] = some 0 ∧
      (var "x" + literal (.float (-0.0))).same (var "x" + 0) = true ∧
      (ofInt 9007199254740993).same (literal (.float 9007199254740992.0)) = false ∧
      (Number.float 9007199254740992.0).Stands (.finite 9007199254740992) := by
  obtain ⟨_, values, literals, parts, _⟩ := same_isCongruence
  have zero : (ofInt 0).same (literal (.float (-0.0))) = true := (literals ..).mpr (by decide)
  have here : (var "x" + 0).at? [1] = some 0 := rfl
  have apart : (ofInt 9007199254740993).same (literal (.float 9007199254740992.0)) = false :=
    Bool.eq_false_iff.mpr fun equal => absurd ((literals ..).mp equal) (by decide)
  exact ⟨zero, here, (parts _ _ _ _ here zero).2, apart, (values ..).mpr (by decide)⟩

end Expr

end SymbolicSimplifier
