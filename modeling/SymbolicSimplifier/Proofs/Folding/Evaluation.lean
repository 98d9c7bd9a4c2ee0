import SymbolicSimplifier.Proofs.Expr.WellFormed
import SymbolicSimplifier.Proofs.Folding.Basic

set_option autoImplicit false

namespace SymbolicSimplifier

namespace OrderedMap

variable {α : Type}

theorem mem_entries_of_find? {map : OrderedMap α} {key : String} {value : α}
    (found : map.find? key = some value) : (key, value) ∈ map.entries := by
  obtain ⟨entries⟩ := map
  induction entries with
  | nil => cases found
  | cons entry rest ih => grind [find?, findIn?]

theorem find?_isSome_of_mem {map : OrderedMap α} {key : String} (member : key ∈ map.keys) :
    (map.find? key).isSome = true := by
  obtain ⟨entries⟩ := map
  induction entries with
  | nil => cases member
  | cons entry rest ih => grind [find?, findIn?, keys]

end OrderedMap

namespace Handler

theorem map_ne_none {α : Type} (f : α → Outcome) (computed : Except Fault α) :
    (some ∘ f) <$> computed ≠ .ok none := by
  cases computed <;> simp [Functor.map, Except.map]

theorem chain_declines_iff (op : Operation) (args : List Number) :
    chain op args = .ok none ↔ args.length = 0 := by
  cases args with
  | nil => simp [chain]
  | cons a rest => simpa [chain] using map_ne_none id _

theorem unary_declines_iff (op : Operation) (args : List Number) :
    unary op args = .ok none ↔ args.length ≠ 1 := by
  unfold unary
  split
  case h_1 => simpa using map_ne_none id _
  case h_2 other => simpa [List.length_eq_one_iff] using other

theorem binary_declines_iff (op : Operation) (args : List Number) :
    binary op args = .ok none ↔ args.length ≠ 2 := by
  unfold binary
  split
  case h_1 => simpa using map_ne_none id _
  case h_2 other => simpa [List.length_eq_two] using other

theorem minus_declines_iff (args : List Number) :
    minus args = .ok none ↔ args.length ≠ 1 ∧ args.length ≠ 2 := by
  unfold minus
  split
  case h_1 => simp
  case h_2 => simpa using map_ne_none Outcome.number _
  case h_3 one two => simpa [List.length_eq_one_iff, List.length_eq_two] using ⟨one, two⟩

theorem quotient_declines_iff (args : List Number) :
    quotient args = .ok none ↔ args.length ≠ 2 := by
  unfold quotient
  split
  case h_1 => simpa using map_ne_none Outcome.number _
  case h_2 other => simpa [List.length_eq_two] using other

end Handler

def IsOperation (symbol : String) (count : Nat) : Prop :=
  symbol ∈ ["+", "*"] ∧ 0 < count ∨
  symbol = "-" ∧ (count = 1 ∨ count = 2) ∨
  symbol = "~" ∧ count = 1 ∨
  symbol ∈ ["/", "**", "==", "<", "<=", ">", ">=", "&", "|"] ∧ count = 2

-- An operator node has as many arguments as its operator takes, so only functions matter.
theorem Head.isOperation {head : Head} {count : Nat} (admitted : head.admits count = true)
    (function : ∀ name, head = .function name → IsOperation name count) :
    IsOperation head.key count := by
  cases head with
  | unary op =>
    obtain rfl : count = 1 := by simpa [admits] using admitted
    cases op <;> simp [key, UnaryOp.symbol, IsOperation]
  | binary op =>
    obtain rfl : count = 2 := by simpa [admits] using admitted
    cases op <;> simp [key, BinaryOp.symbol, IsOperation]
  | function name => exact function name rfl

namespace Prelude

theorem result?_isSome_iff (handlers : Prelude) (head : Head) (args : List Number) :
    (handlers.result? head args).isSome = true ↔
      ∃ handler, handlers.find? head.key = some handler ∧ handler args ≠ .ok none := by
  unfold result?
  cases handlers.find? head.key with
  | none => simp
  | some handler =>
    cases evaluated : handler args with
    | error fault => simp [evaluated]
    | ok outcome => cases outcome <;> simp [evaluated]

theorem operators_entries : operators.entries = [
    ("+", .chain .add), ("-", .minus), ("*", .chain .mul), ("/", .quotient), ("**", .binary .pow),
    ("==", .binary .eq), ("<", .binary .lt), ("<=", .binary .le), (">", .binary .gt),
    (">=", .binary .ge), ("&", .binary .and), ("|", .binary .or), ("~", .unary .invert)] :=
  rfl

theorem operators_declines_iff {symbol : String} {handler : Handler}
    (known : (symbol, handler) ∈ operators.entries) (args : List Number) :
    handler args = .ok none ↔ ¬ IsOperation symbol args.length := by
  rw [operators_entries] at known
  simp only [List.mem_cons, Prod.mk.injEq, List.not_mem_nil, or_false] at known
  obtain ⟨rfl, rfl⟩ | ⟨rfl, rfl⟩ | ⟨rfl, rfl⟩ | ⟨rfl, rfl⟩ | ⟨rfl, rfl⟩ | ⟨rfl, rfl⟩ | ⟨rfl, rfl⟩ |
    ⟨rfl, rfl⟩ | ⟨rfl, rfl⟩ | ⟨rfl, rfl⟩ | ⟨rfl, rfl⟩ | ⟨rfl, rfl⟩ | ⟨rfl, rfl⟩ := known <;>
  simp [IsOperation, Handler.chain_declines_iff, Handler.minus_declines_iff,
    Handler.quotient_declines_iff, Handler.binary_declines_iff, Handler.unary_declines_iff]

theorem operators_result?_isSome_iff (head : Head) (args : List Number) :
    (operators.result? head args).isSome = true ↔ IsOperation head.key args.length := by
  rw [result?_isSome_iff]
  constructor
  · rintro ⟨handler, found, answers⟩
    have known := OrderedMap.mem_entries_of_find? found
    by_contra other
    exact answers ((operators_declines_iff known args).mpr other)
  · intro operation
    have named : head.key ∈ operators.keys := by
      rw [OrderedMap.keys, operators_entries]
      unfold IsOperation at operation
      simp at operation ⊢
      tauto
    obtain ⟨handler, found⟩ := Option.isSome_iff_exists.mp (OrderedMap.find?_isSome_of_mem named)
    refine ⟨handler, found, fun declines => ?_⟩
    have known := OrderedMap.mem_entries_of_find? found
    exact (operators_declines_iff known args).mp declines operation

end Prelude

namespace Expr

section Parts

variable {handlers : Prelude}

theorem IsLeaf.evaluate? {e : Expr} (leaf : e.IsLeaf) (handlers : Prelude) :
    e.evaluate? handlers = e.literal? := by
  cases e with
  | node head args => exact absurd rfl (leaf head args)
  | _ => rfl

theorem evaluate?_isSome_of_subterm {s e : Expr} (inside : Subterm s e)
    (evaluates : (e.evaluate? handlers).isSome = true) :
    (s.evaluate? handlers).isSome = true := by
  induction inside with
  | refl => exact evaluates
  | @arg a head args member _ ih =>
    rw [evaluate?_node] at evaluates
    exact ih ((mapM_isSome_iff ..).mp (Option.isSome_of_isSome_bind evaluates) a member)

theorem literal_of_evaluate? {s e : Expr} (inside : Subterm s e) (leaf : s.IsLeaf)
    (evaluates : (e.evaluate? handlers).isSome = true) : ∃ n, s = .literal n := by
  have value := evaluate?_isSome_of_subterm inside evaluates
  rw [leaf.evaluate?] at value
  cases s with
  | literal n => exact ⟨n, rfl⟩
  | _ => cases value

end Parts

theorem evaluate?_node_isSome_iff (head : Head) (args : List Expr) :
    ((node head args).evaluate? .operators).isSome = true ↔
      IsOperation head.key args.length ∧
        ∀ a ∈ args, (a.evaluate? .operators).isSome = true := by
  rw [evaluate?_node, ← mapM_isSome_iff]
  cases values : args.mapM (evaluate? .operators) with
  | none => simp
  | some numbers =>
    have count : args.length = numbers.length := ((mapM_eq_some_iff ..).mp values).length_eq
    simp [Prelude.operators_result?_isSome_iff, count]

/-- With the standard operators exactly those expressions have a value in which all leaves are
literals and all functions are operators by name and by the number of their arguments. -/
theorem evaluates_iff_closed {e : Expr} (formed : e.isWellFormed = true) :
    (e.evaluate? .operators).isSome = true ↔
      (∀ s, Subterm s e → s.IsLeaf → ∃ n, s = .literal n) ∧
      ∀ name args, Subterm (.node (.function name) args) e → IsOperation name args.length := by
  constructor
  · intro evaluates
    constructor
    · exact fun s inside leaf => literal_of_evaluate? inside leaf evaluates
    · intro name args inside
      have value := evaluate?_isSome_of_subterm inside evaluates
      exact ((evaluate?_node_isSome_iff ..).mp value).1
  · rintro ⟨leaves, functions⟩
    induction e using Expr.induction with
    | literal n => rfl
    | named name n =>
      obtain ⟨m, other⟩ := leaves _ (.refl _) (isLeaf_named name n)
      cases other
    | var name =>
      obtain ⟨m, other⟩ := leaves _ (.refl _) (isLeaf_var name)
      cases other
    | node head args ih =>
      obtain ⟨⟨_, admitted⟩, inner⟩ := (isWellFormed_node ..).mp formed
      refine (evaluate?_node_isSome_iff ..).mpr ⟨?_, fun a member => ?_⟩
      · refine Head.isOperation admitted fun name here => ?_
        subst here
        exact functions name args (.refl _)
      · exact ih a member (inner a member) (fun s inside => leaves s (.arg member inside))
          fun name args inside => functions name args (.arg member inside)

def undefinedSum : Expr :=
  .apply "+" [1 / 0, .power (-1) (.literal (.float 0.5)), .power 10 400 * .literal (.float 1.0)]

def longDifference : Expr :=
  .apply "-" [1, 2, 3]

theorem undefinedSum_evaluates :
    undefinedSum.isWellFormed = true ∧ longDifference.isWellFormed = true ∧
      (undefinedSum.evaluate? .operators).isSome = true ∧
      (longDifference.evaluate? .operators).isSome = false := by
  have formed : undefinedSum.isWellFormed = true := by decide
  have formed' : longDifference.isWellFormed = true := by decide
  refine ⟨formed, formed', (evaluates_iff_closed formed).mpr ⟨?_, ?_⟩, ?_⟩
  · intro s inside leaf
    cases s with
    | literal n => exact ⟨n, rfl⟩
    | node head args => exact absurd rfl (leaf head args)
    | _ => simp [undefinedSum] at inside
  · intro name args inside
    obtain ⟨rfl, rfl⟩ : name = "+" ∧ args = undefinedSum.children := by
      simpa [undefinedSum, children] using inside
    simp [IsOperation, undefinedSum, children]
  · refine Bool.eq_false_iff.mpr fun evaluates => ?_
    have operation := ((evaluates_iff_closed formed').mp evaluates).2 "-" [1, 2, 3] (.refl _)
    simp [IsOperation] at operation

end Expr

end SymbolicSimplifier
