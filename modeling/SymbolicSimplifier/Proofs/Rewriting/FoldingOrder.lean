import Mathlib.Data.List.Chain
import SymbolicSimplifier.Expr.Arithmetic
import SymbolicSimplifier.Proofs.Expr.Congruence
import SymbolicSimplifier.Proofs.Rewriting.Literals

set_option autoImplicit false

namespace SymbolicSimplifier

theorem exists_modify_eq {α : Type} {as : List α} {index : Nat} {a : α}
    (found : as[index]? = some a) (f : α → α) :
    ∃ before after, as = before ++ a :: after ∧ as.modify index f = before ++ f a :: after := by
  obtain ⟨bound, _⟩ := List.getElem?_eq_some_iff.mp found
  obtain ⟨before, b, after, rfl, rfl, modified⟩ := List.exists_of_modify f bound
  obtain rfl : b = a := by simpa using found
  exact ⟨before, after, rfl, modified⟩

namespace Expr

def headCount : Expr → Nat :=
  bottomUp (fun _ => 0) (fun _ counts => counts.sum + 1)

@[simp] theorem headCount_literal (n : Number) : (literal n).headCount = 0 :=
  rfl

@[simp] theorem headCount_node (head : Head) (args : List Expr) :
    (node head args).headCount = (args.map headCount).sum + 1 :=
  bottomUp_node _ _ head args

def ContractsAt (result? : Expr → Option Expr) (position : List Nat) (e f : Expr) : Prop :=
  ∃ s t, e.at? position = some s ∧ result? s = some t ∧ f = replaceAt t position e

def FoldsOnce (handlers : Prelude) (e f : Expr) : Prop :=
  ∃ position, ContractsAt (fun s => (handlers.nodeValue? s).map literal) position e f

theorem subterm_of_at? {e s : Expr} {position : List Nat} (here : e.at? position = some s) :
    Subterm s e := by
  induction position generalizing e with
  | nil =>
    cases here
    exact .refl s
  | cons index rest ih =>
    cases e with
    | node head args =>
      obtain ⟨a, found, inner⟩ := Option.bind_eq_some_iff.mp here
      exact .arg (List.mem_of_getElem? found) (ih inner)
    | _ => cases here

theorem exists_at?_of_subterm {e s : Expr} (inside : Subterm s e) :
    ∃ position, e.at? position = some s := by
  induction inside with
  | refl => exact ⟨[], rfl⟩
  | @arg a head args member _ ih =>
    obtain ⟨index, found⟩ := List.getElem?_of_mem member
    obtain ⟨rest, inner⟩ := ih
    exact ⟨index :: rest, by rw [at?_node_cons, found, Option.bind_some, inner]⟩

theorem bottomUp_replaceAt {α : Type} {leaf : Expr → α} {node : Head → List α → α} {e s t : Expr}
    {position : List Nat} (here : e.at? position = some s)
    (equal : t.bottomUp leaf node = s.bottomUp leaf node) :
    (replaceAt t position e).bottomUp leaf node = e.bottomUp leaf node := by
  induction position generalizing e with
  | nil =>
    cases here
    exact equal
  | cons index rest ih =>
    cases e with
    | node head args =>
      obtain ⟨a, found, inner⟩ := Option.bind_eq_some_iff.mp here
      obtain ⟨before, after, rfl, modified⟩ := exists_modify_eq found (replaceAt t rest)
      rw [replaceAt, modified, bottomUp_node, bottomUp_node, List.map_append, List.map_append,
        List.map_cons, List.map_cons, ih inner]
    | _ => cases here

theorem headCount_replaceAt {e s : Expr} {position : List Nat} (here : e.at? position = some s)
    (t : Expr) :
    (replaceAt t position e).headCount + s.headCount = e.headCount + t.headCount := by
  induction position generalizing e with
  | nil =>
    cases here
    exact Nat.add_comm _ _
  | cons index rest ih =>
    cases e with
    | node head args =>
      obtain ⟨a, found, inner⟩ := Option.bind_eq_some_iff.mp here
      obtain ⟨before, after, rfl, modified⟩ := exists_modify_eq found (replaceAt t rest)
      have counts := ih inner
      simp only [replaceAt, modified, headCount_node, List.map_append, List.map_cons,
        List.sum_append, List.sum_cons]
      omega
    | _ => cases here

variable {handlers : Prelude}

theorem exists_numbers_of_nodeValue? {s : Expr} {n : Number}
    (value : handlers.nodeValue? s = some n) :
    ∃ head numbers, s = .node head (numbers.map .literal) ∧
      handlers.result? head numbers = some n := by
  cases s with
  | node head args =>
    obtain ⟨numbers, rfl, result⟩ := (Prelude.literalValue?_eq_some_iff ..).mp value
    exact ⟨head, numbers, rfl, result⟩
  | _ => cases value

theorem fold_of_nodeValue? {s : Expr} {n : Number} (value : handlers.nodeValue? s = some n) :
    s.fold handlers = .literal n := by
  obtain ⟨head, numbers, rfl, result⟩ := exists_numbers_of_nodeValue? value
  rw [fold_node, List.map_map]
  exact Prelude.settle_of_result? result

theorem headCount_of_nodeValue? {s : Expr} {n : Number} (value : handlers.nodeValue? s = some n) :
    s.headCount = 1 := by
  obtain ⟨head, numbers, rfl, _⟩ := exists_numbers_of_nodeValue? value
  simp [Function.comp_def]

namespace FoldsOnce

theorem fold_eq {e f : Expr} (folds : FoldsOnce handlers e f) :
    f.fold handlers = e.fold handlers := by
  obtain ⟨position, s, t, here, contracted, rfl⟩ := folds
  obtain ⟨n, value, rfl⟩ := Option.map_eq_some_iff.mp contracted
  exact bottomUp_replaceAt here (fold_of_nodeValue? value).symm

theorem headCount_eq {e f : Expr} (folds : FoldsOnce handlers e f) :
    f.headCount + 1 = e.headCount := by
  obtain ⟨position, s, t, here, contracted, rfl⟩ := folds
  obtain ⟨n, value, rfl⟩ := Option.map_eq_some_iff.mp contracted
  have counts := headCount_replaceAt here (literal n)
  rwa [headCount_of_nodeValue? value] at counts

end FoldsOnce

theorem foldsOnce_iff (e : Expr) :
    (∃ f, FoldsOnce handlers e f) ↔ ∃ s, Subterm s e ∧ handlers.nodeValue? s ≠ none := by
  constructor
  · rintro ⟨f, position, s, t, here, contracted, _⟩
    obtain ⟨n, value, _⟩ := Option.map_eq_some_iff.mp contracted
    exact ⟨s, subterm_of_at? here, by simp [value]⟩
  · rintro ⟨s, inside, foldable⟩
    obtain ⟨n, value⟩ := Option.ne_none_iff_exists'.mp foldable
    obtain ⟨position, here⟩ := exists_at?_of_subterm inside
    exact ⟨_, position, s, .literal n, here, Option.map_eq_some_iff.mpr ⟨n, value, rfl⟩, rfl⟩

theorem fold_eq_iff (e : Expr) :
    e.fold handlers = e ↔ ∀ s, Subterm s e → handlers.nodeValue? s = none := by
  rw [fold_eq_pass, pass_eq_iff_quiet id_lighter]
  exact ⟨fun quiet s inside => (quiet s inside).1, fun unfoldable s inside =>
    ⟨unfoldable s inside, rfl⟩⟩

theorem fold_of_stuck {e : Expr} (stuck : ∀ f, ¬ FoldsOnce handlers e f) :
    e.fold handlers = e := by
  rw [fold_eq_iff]
  intro s inside
  by_contra foldable
  obtain ⟨f, folds⟩ := (foldsOnce_iff e).mpr ⟨s, inside, foldable⟩
  exact stuck f folds

theorem fold_fold (e : Expr) : (e.fold handlers).fold handlers = e.fold handlers :=
  bottomUp_fold (fun _ _ _ result => Prelude.settle_of_result? result) e

-- What a sequence of contractions keeps: the folded form, and the sum of heads and contractions.
theorem foldsOnce_chain {e : Expr} {states : List Expr}
    (chain : (e :: states).IsChain (FoldsOnce handlers)) :
    (states.getLastD e).fold handlers = e.fold handlers ∧
      states.length + (states.getLastD e).headCount = e.headCount := by
  induction states generalizing e with
  | nil => exact ⟨rfl, Nat.zero_add _⟩
  | cons f states ih =>
    obtain ⟨folds, rest⟩ := List.isChain_cons_cons.mp chain
    obtain ⟨folded, count⟩ := ih rest
    rw [List.getLastD_cons]
    refine ⟨folded.trans folds.fold_eq, ?_⟩
    have taken := folds.headCount_eq
    rw [List.length_cons]
    omega

theorem exists_foldsOnce_chain (e : Expr) :
    ∃ states, (e :: states).IsChain (FoldsOnce handlers) ∧
      states.getLastD e = e.fold handlers := by
  induction count : e.headCount using Nat.strong_induction_on generalizing e with
  | _ bound ih =>
    by_cases stuck : ∃ f, FoldsOnce handlers e f
    · obtain ⟨f, folds⟩ := stuck
      have fewer : f.headCount < bound := by
        have taken := folds.headCount_eq
        omega
      obtain ⟨states, chain, last⟩ := ih f.headCount fewer f rfl
      refine ⟨f :: states, List.isChain_cons_cons.mpr ⟨folds, chain⟩, ?_⟩
      rw [List.getLastD_cons, last, folds.fold_eq]
    · exact ⟨[], .singleton e, (fold_of_stuck (not_exists.mp stuck)).symm⟩

/-- However the nodes of an expression are folded one by one, there are no more contractions than
operators and functions, and when none is left the expression is the folded one, in which nothing
can be folded. -/
theorem folding_order_irrelevant (handlers : Prelude) (e : Expr) :
    (∀ states, (e :: states).IsChain (FoldsOnce handlers) →
      states.length ≤ e.headCount ∧
        ((∀ f, ¬ FoldsOnce handlers (states.getLastD e) f) →
          states.getLastD e = e.fold handlers)) ∧
    (∃ states, (e :: states).IsChain (FoldsOnce handlers) ∧
      states.getLastD e = e.fold handlers) ∧
    (e.fold handlers).fold handlers = e.fold handlers ∧
    ∀ s, Subterm s (e.fold handlers) → handlers.nodeValue? s = none := by
  refine ⟨fun states chain => ?_, exists_foldsOnce_chain e, fold_fold e, ?_⟩
  · obtain ⟨folded, count⟩ := foldsOnce_chain chain
    exact ⟨by omega, fun stuck => (fold_of_stuck stuck).symm.trans folded⟩
  · exact (fold_eq_iff _).mp (fold_fold e)

def foldableTwice : Expr :=
  (2 + 3) * (.var "x" + (1 - 1))

theorem folding_from_the_right :
    ∃ states, (foldableTwice :: states).IsChain (FoldsOnce .operators) ∧
      states.head? = some ((2 + 3) * (.var "x" + 0)) ∧
      states.length ≤ foldableTwice.headCount ∧
      states.getLastD foldableTwice = foldableTwice.fold .operators := by
  let states : List Expr := [(2 + 3) * (.var "x" + 0), 5 * (.var "x" + 0)]
  have chain : (foldableTwice :: states).IsChain (FoldsOnce .operators) := by
    have right : FoldsOnce .operators foldableTwice ((2 + 3) * (.var "x" + 0)) :=
      ⟨[1, 1], 1 - 1, 0, rfl, rfl, rfl⟩
    have left : FoldsOnce .operators ((2 + 3) * (.var "x" + 0)) (5 * (.var "x" + 0)) :=
      ⟨[0], 2 + 3, 5, rfl, rfl, rfl⟩
    exact List.isChain_cons_cons.mpr ⟨right, List.isChain_cons_cons.mpr ⟨left, .singleton _⟩⟩
  have stuck (f : Expr) : ¬ FoldsOnce .operators (states.getLastD foldableTwice) f := by
    intro folds
    obtain ⟨s, inside, foldable⟩ := (foldsOnce_iff _).mp ⟨f, folds⟩
    exact foldable ((fold_eq_iff _).mp rfl s inside)
  obtain ⟨bounded, last⟩ := (folding_order_irrelevant .operators foldableTwice).1 states chain
  exact ⟨states, chain, rfl, bounded, last stuck⟩

end Expr

end SymbolicSimplifier
